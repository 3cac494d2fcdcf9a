import ShopTables.Binary64.Basic

/-!
# Numerals — numbers read from decimal text

A numeral is a sign, digits with or without a point among them, and perhaps an exponent. Its value
is exact; `Numeral.toBinary64` rounds it once. `Binary64.ofText?` is the reading of a whole text:
a numeral, or one of the names of infinity and NaN in any case.
-/

namespace ShopTables

/-- Decimal text taken apart. -/
structure Numeral where
  negative : Bool
  whole : List Char
  fraction : List Char
  exponent : Int
  deriving DecidableEq

def digitsValue (digits : List Char) : Nat :=
  digits.foldl (fun n c => n * 10 + (c.toNat - '0'.toNat)) 0

/-- The ASCII digits at the start of a text, and what follows them. -/
def splitDigits (cs : List Char) : List Char × List Char :=
  (cs.takeWhile Char.isDigit, cs.dropWhile Char.isDigit)

/-- The sign at the start of a text (negative or not) and what follows it. -/
def splitSign : List Char → Bool × List Char
  | '-' :: rest => (true, rest)
  | '+' :: rest => (false, rest)
  | cs => (false, cs)

namespace Numeral

def toBinary64 (n : Numeral) : Binary64 :=
  Binary64.ofDecimal n.negative (digitsValue (n.whole ++ n.fraction))
    (n.exponent - n.fraction.length)

/-- The exponent that ends a numeral: nothing, or `e`, perhaps a sign, and digits. -/
def readExponent? : List Char → Option Int
  | [] => some 0
  | c :: rest =>
    if c = 'e' ∨ c = 'E' then
      let (negative, digits) := splitSign rest
      if digits.isEmpty || !digits.all Char.isDigit then none
      else some (if negative then -(digitsValue digits : Int) else digitsValue digits)
    else none

/-- Reads a whole text as a numeral. Digits may be missing before or after the point, not both. -/
def ofText? (cs : List Char) : Option Numeral :=
  let (negative, body) := splitSign cs
  let (whole, rest) := splitDigits body
  let (fraction, rest) :=
    match rest with
    | '.' :: more => splitDigits more
    | _ => ([], rest)
  if whole.isEmpty && fraction.isEmpty then none
  else (readExponent? rest).map fun e => ⟨negative, whole, fraction, e⟩

end Numeral

/-- Reads a whole text as a number: a numeral, or the name of infinity or NaN, either signed. -/
def Binary64.ofText? (cs : List Char) : Option Binary64 :=
  let (negative, body) := splitSign cs
  let name := body.map Char.toLower
  if name = "inf".toList ∨ name = "infinity".toList then some (infinite negative)
  else if name = "nan".toList then some nan
  else (Numeral.ofText? cs).map Numeral.toBinary64

end ShopTables
