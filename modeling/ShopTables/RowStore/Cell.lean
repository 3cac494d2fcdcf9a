import ShopTables.Sql.CreateTable
import ShopTables.RowStore.NumericText
import ShopTables.Value

/-!
# Stored cells

What a row store keeps is not a value but a stored cell: nothing, an integer, a real number, text
or bytes. A value becomes a cell (`Cell.ofValue`), the storage type of its column may turn the cell
into another kind (`StorageType.coerce`), and read back through the column it is a value again
(`Cell.toValue`). A column of numbers takes numeric text as a number, a column of text takes
numbers as text, and bytes stay bytes everywhere.
-/

namespace ShopTables

/-- A cell as it is stored. -/
inductive Cell where
  | null
  | integer (i : Int)
  | real (x : Binary64)
  | text (s : String)
  | blob (bytes : List UInt8)
  deriving DecidableEq

namespace Cell

/-- The cell of a value. What is not a number is stored as nothing. -/
def ofValue : Value → Cell
  | .null => .null
  | .text s => .text s
  | .boolean b => .integer (if b then 1 else 0)
  | .double x => if x.isNaN then .null else .real x
  | .json bytes => .blob bytes

/-- The value of a cell in a column: integers are truth values where the column holds those, and
numbers elsewhere. -/
def toValue (c : Column) : Cell → Value
  | .null => .null
  | .integer i => if c.type = .boolean then .boolean (i != 0) else .double (Binary64.ofInt i)
  | .real x => .double x
  | .text s => .text s
  | .blob bytes => .json bytes

def isNull (c : Cell) : Bool := c == .null

def ofNumber : NumericText.Number → Cell
  | .integer i => .integer i
  | .real x => .real x

/-! ### Conversions -/

/-- Real numbers turned into text have fifteen digits at most, an exponent from 1e15 on and below
1e-4, and always a point. -/
def realLayout : Layout := ⟨some (-4), some 14, true, true, 2⟩

/-- The text of a real number. Zero has no sign. -/
def realText (x : Binary64) : List Char :=
  if !x.isFinite then x.signText ++ "Inf".toList
  else if x.isZero then realLayout.writeZero
  else x.signText ++ realLayout.writeDecimal (x.rounded 15)

def asText : Cell → Cell
  | .integer i => .text (String.ofList (Json.writeInt i))
  | .real x => .text (String.ofList (realText x))
  | c => c

def asNumber : Cell → Cell
  | .text s =>
    match NumericText.number? s.toList with
    | some n => ofNumber n
    | none => .text s
  | c => c

/-- The integer that a real number is, if it has no fraction and lies within the 64-bit range
without its two ends. -/
def integerOf? (x : Binary64) : Option Int :=
  if x.isFinite && x.numerator % x.denominator == 0 then
    let i := x.truncate
    if -9223372036854775808 < i ∧ i < 9223372036854775807 then some i else none
  else none

/-- Real numbers without fraction become integers. -/
def asInteger : Cell → Cell
  | .real x =>
    match integerOf? x with
    | some i => .integer i
    | none => .real x
  | c => c

def asReal : Cell → Cell
  | .integer i => .real (Binary64.ofInt i)
  | c => c

/-! ### Order -/

/-- Compares an integer with a real number by value. -/
def compareIntReal (i : Int) (x : Binary64) : Ordering :=
  if x.isFinite then Binary64.compareRatio i 1 x.signedNumerator x.denominator
  else compare 0 x.rank

/-- The kinds of cells in their order: nothing, numbers, text, bytes. -/
def kindRank : Cell → Nat
  | .null => 0
  | .integer _ => 1
  | .real _ => 1
  | .text _ => 2
  | .blob _ => 3

def compareBytes : List UInt8 → List UInt8 → Ordering
  | [], [] => .eq
  | [], _ :: _ => .lt
  | _ :: _, [] => .gt
  | a :: as, b :: bs => (compare a.toNat b.toNat).then (compareBytes as bs)

/-- Compares cells: by kind, then numbers by value, text and bytes by their bytes. -/
def compareTo : Cell → Cell → Ordering
  | .integer i, .integer j => compare i j
  | .integer i, .real y => compareIntReal i y
  | .real x, .integer j => (compareIntReal j x).swap
  | .real x, .real y => x.compareTo y
  | .text s, .text t => compareBytes (Text.Utf8.ofString s) (Text.Utf8.ofString t)
  | .blob a, .blob b => compareBytes a b
  | a, b => compare a.kindRank b.kindRank

end Cell

namespace StorageType

/-- A cell as a column of this storage type keeps it. -/
def coerce : StorageType → Cell → Cell
  | .text, c => c.asText
  | .blob, c => c
  | .integer, c => c.asNumber.asInteger
  | .real, c => c.asNumber.asInteger.asReal

def isText : Cell → Bool
  | .text _ => true
  | _ => false

/-- Does a stored cell agree with a given one? Both may be empty. A column of numbers takes
numeric text for a number; a column of text takes a number for its text if the other is text. -/
def agree (t : StorageType) (stored given : Cell) : Bool :=
  let stored' :=
    match t with
    | .blob => stored
    | .text => if isText given then stored.asText else stored
    | .integer | .real => stored.asNumber
  let given' :=
    match t with
    | .blob => given
    | .text => if isText stored then given.asText else given
    | .integer | .real => given.asNumber
  stored'.compareTo given' == .eq

end StorageType

end ShopTables
