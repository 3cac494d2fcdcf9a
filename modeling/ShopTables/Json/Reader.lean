import ShopTables.Json.Basic
import ShopTables.Json.Outline
import ShopTables.Binary64.Numeral

/-!
# Reading JSON values

`Json.ofOutline?` asks of an outline what it means as a value: strings must be text, numbers must
be of the format, and arrays and objects nest at most `Json.maxDepth` deep. `Json.read?` is the
reading of a whole document.

A number with a point or an exponent is read in two roundings: its digits as an integer (as many
as fit 64 bits, the later ones dropped), then times or over a power of ten that is itself rounded.
The result can differ from the nearest double in its last place.
-/

namespace ShopTables.Json

/-- How deep arrays and objects may nest in a document. -/
def maxDepth : Nat := 127

/-! ### Strings -/

/-- Is a unit the first half of a character beyond U+FFFF? -/
def isLeadUnit (u : Nat) : Bool := 0xD800 ≤ u && u ≤ 0xDBFF

/-- Is a unit the second half of a character beyond U+FFFF? -/
def isTrailUnit (u : Nat) : Bool := 0xDC00 ≤ u && u ≤ 0xDFFF

/-- The text that pieces make: half characters must come in pairs, faults make none. -/
def joinPieces? : List Piece → Option (List Char)
  | [] => some []
  | .char c :: rest => (joinPieces? rest).map (c :: ·)
  | .fault :: _ => none
  | .unit u :: .unit v :: rest =>
    if isTrailUnit u then none
    else if isLeadUnit u then
      if isTrailUnit v then
        (joinPieces? rest).map
          (Char.ofNat ((u - 0xD800) * 0x400 + (v - 0xDC00) + 0x10000) :: ·)
      else none
    else (joinPieces? (.unit v :: rest)).map (Char.ofNat u :: ·)
  | .unit u :: rest =>
    if isTrailUnit u || isLeadUnit u then none else (joinPieces? rest).map (Char.ofNat u :: ·)

def stringOf? (pieces : List Piece) : Option String := (joinPieces? pieces).map String.ofList

/-! ### Numbers -/

/-- The first number that does not fit 64 bits. -/
def wordLimit : Nat := 18446744073709551616

/-- Takes digits into `n` as long as it fits 64 bits: the number, and how many digits are left. -/
def takeDigits (n : Nat) : List Char → Nat × Nat
  | [] => (n, 0)
  | d :: ds =>
    let next := n * 10 + (d.toNat - '0'.toNat)
    if next < wordLimit then takeDigits next ds else (n, (d :: ds).length)

/-- `x` times or over a power of ten, which is rounded first; powers beyond the format are applied
in parts. Sizes beyond the format are refused, sizes below it are zero. -/
def scaleByTen? (x : Binary64) (e : Int) : Option Binary64 :=
  if e.natAbs ≤ 308 then
    let power := Binary64.ofDecimal false 1 e.natAbs
    if 0 ≤ e then
      let y := x.mul power
      if y.isFinite then some y else none
    else some (x.div power)
  else if x.isZero then some x
  else if 0 ≤ e then none
  else scaleByTen? (x.div (Binary64.ofDecimal false 1 308)) (e + 308)
termination_by e.natAbs

/-- The exponent of a number; too large a one is told apart by its sign alone. -/
def exponentOf : Option (Bool × List Char) → Except Bool Int
  | none => .ok 0
  | some (negative, digits) =>
    let n := digitsValue digits
    if 2147483647 < n then .error negative else .ok (if negative then -(n : Int) else n)

namespace Literal

/-- A number with a fraction or an exponent, or with more digits than fit an integer. -/
def float? (l : Literal) : Option Binary64 :=
  let (n, dropped) := takeDigits 0 l.whole
  let (n, kept) :=
    match l.fraction with
    | none => (n, 0)
    | some ds => let (n, left) := takeDigits n ds; (n, ds.length - left)
  let size :=
    match exponentOf l.exponent with
    | .error negative =>
      if n = 0 ∨ negative = true then some (Binary64.zero false) else none
    | .ok e => scaleByTen? (Binary64.ofInt n) ((dropped : Int) - kept + e)
  size.map fun x => if l.negative then x.negate else x

/-- What number a literal is: an integer if it is written as one and fits 64 bits (with or
without sign), else a float. Minus zero is a float. -/
def number? (l : Literal) : Option Number :=
  let (n, dropped) := takeDigits 0 l.whole
  if dropped = 0 ∧ l.fraction = none ∧ l.exponent = none then
    if l.negative then
      if 0 < n ∧ n ≤ 9223372036854775808 then some (.integer (-n))
      else some (.float (Binary64.ofInt n).negate)
    else some (.integer n)
  else l.float?.map .float

end Literal

/-! ### Values -/

mutual

/-- The value of an outline whose arrays and objects may nest `depth` deep. -/
def ofOutline? (depth : Nat) : Outline → Option Json
  | .null => some .null
  | .bool b => some (.bool b)
  | .number l => l.number?.map .number
  | .string ps => (stringOf? ps).map .string
  | .array items =>
    match depth with
    | 0 => none
    | d + 1 => (ofOutlines? d items).map .array
  | .object members =>
    match depth with
    | 0 => none
    | d + 1 => (ofMembers? d members).map ofFields

def ofOutlines? (depth : Nat) : List Outline → Option (List Json)
  | [] => some []
  | o :: os =>
    match ofOutline? depth o, ofOutlines? depth os with
    | some v, some vs => some (v :: vs)
    | _, _ => none

/-- The fields of members, in the order of the document. -/
def ofMembers? (depth : Nat) : List (List Piece × Outline) → Option (List (String × Json))
  | [] => some []
  | (key, o) :: ms =>
    match stringOf? key, ofOutline? depth o, ofMembers? depth ms with
    | some k, some v, some fs => some ((k, v) :: fs)
    | _, _, _ => none

end

def read? (bytes : List UInt8) : Option Json :=
  (Outline.read? bytes).bind (ofOutline? maxDepth)

end ShopTables.Json
