import ShopTables.Binary64.Numeral
import ShopTables.Yaml.Scalar

/-!
# What a plain scalar would be taken for

A plain scalar may stand for nothing, a truth value, an integer or a floating-point number. A text
that is meant as a text is therefore quoted if its plain form were taken for one of these
(`isAmbiguous`), and a count is read from the forms that integers have (`unsigned?`).
-/

namespace ShopTables.Yaml

/-! ### Integers -/

/-- The number written by digits of a radix up to 16; at least one digit is needed. -/
def radixNumber? (radix : Nat) (digits : List Char) : Option Nat :=
  if digits.isEmpty then none
  else digits.foldlM (fun n c =>
    match hexValue? c with
    | some d => if d < radix then some (n * radix + d) else none
    | none => none) 0

/-- The size written by digits, perhaps after the mark of another radix than ten. -/
def size? : List Char → Option Nat
  | '0' :: 'x' :: digits => radixNumber? 16 digits
  | '0' :: 'o' :: digits => radixNumber? 8 digits
  | '0' :: 'b' :: digits => radixNumber? 2 digits
  | digits => radixNumber? 10 digits

/-- Is a text digits of which the first of several is zero? They are no number. -/
def hasLeadingZero (cs : List Char) : Bool :=
  match (splitSign cs).2 with
  | '0' :: d :: ds => (d :: ds).all Char.isDigit
  | _ => false

/-- The integer that is not negative which a text stands for. -/
def unsigned? (cs : List Char) : Option Nat :=
  if hasLeadingZero cs then none
  else
    match cs with
    | '+' :: digits => size? digits
    | digits => size? digits

/-- The size of the negative integer that a text stands for. -/
def negative? (cs : List Char) : Option Nat :=
  if hasLeadingZero cs then none
  else
    match cs with
    | '-' :: digits => size? digits
    | _ => none

/-- Does a text stand for an integer of 128 bits? -/
def isInteger (cs : List Char) : Bool :=
  (unsigned? cs).any (· < Nat.pow 2 128) || (negative? cs).any (· ≤ Nat.pow 2 127)

/-! ### Other kinds -/

/-- Does a text stand for nothing? -/
def isNull (cs : List Char) : Bool :=
  ["", "null", "Null", "NULL", "~"].contains (String.ofList cs)

def isBoolean (cs : List Char) : Bool :=
  ["true", "True", "TRUE", "false", "False", "FALSE"].contains (String.ofList cs)

/-- Does a text stand for an infinity or for NaN? -/
def isNonFinite (cs : List Char) : Bool :=
  [".inf", ".Inf", ".INF"].contains (String.ofList (splitSign cs).2)
    || [".nan", ".NaN", ".NAN"].contains (String.ofList cs)

/-- Does a text stand for a finite floating-point number? -/
def isFiniteNumber (cs : List Char) : Bool := (Numeral.ofText? cs).any (·.toBinary64.isFinite)

/-- Would a text be taken for something else than a text? Digits after a zero are quoted as well,
since not all readers agree on them. -/
def isAmbiguous (cs : List Char) : Bool :=
  isNull cs || isBoolean cs || isInteger cs || hasLeadingZero cs || isFiniteNumber cs
    || isNonFinite cs

end ShopTables.Yaml
