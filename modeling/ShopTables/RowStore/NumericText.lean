import ShopTables.Binary64.Numeral
import ShopTables.Binary64.Wide

/-!
# Numeric text — when a column of numbers takes a text for a number

A text counts as a number if, but for blanks at both ends, it is a numeral. Of the digits of a
numeral as many are kept as fit 64 bits, the later ones only move the point; an exponent is kept
from growing beyond five digits; and the power of ten is multiplied in as a `Wide` number. What is
left of a text that merely begins with a numeral is its value where a text is computed with.
-/

namespace ShopTables.NumericText

def isSpace (c : Char) : Bool := c == ' ' || (9 ≤ c.toNat && c.toNat ≤ 13)

/-- From this significand on, further digits are dropped. -/
def significandLimit : Nat := 1844674407370955160

/-- Takes digits into a significand while it is below the limit: the significand, and how many
digits are left. -/
def takeSignificand (n : Nat) : List Char → Nat × Nat
  | [] => (n, 0)
  | d :: ds =>
    if n < significandLimit then takeSignificand (n * 10 + (d.toNat - '0'.toNat)) ds
    else (n, (d :: ds).length)

/-- How much of a text a numeral takes up. -/
inductive Extent where
  /-- All of it, and the numeral has neither point nor exponent. -/
  | integer
  /-- All of it. -/
  | number
  /-- A beginning that has a point or an exponent. -/
  | numberPrefix
  /-- A beginning that is an integer or nothing at all. -/
  | integerPrefix
  deriving DecidableEq

/-- The numeral at the start of a text. -/
structure Reading where
  negative : Bool
  whole : List Char
  fraction : List Char
  exponent : Int
  extent : Extent

/-- The value of an exponent's digits; one of more than five digits counts as 10000. -/
def exponentValue (digits : List Char) : Nat :=
  digits.foldl (fun n d => if n < 10000 then n * 10 + (d.toNat - '0'.toNat) else 10000) 0

/-- The exponent at the start of a text: its value, whether it has digits, and what follows. -/
def readExponent (cs : List Char) : Int × Bool × List Char :=
  let (negative, rest) := splitSign cs
  let (digits, rest) := splitDigits rest
  let size : Int := exponentValue digits
  (if negative then -size else size, !digits.isEmpty, rest)

/-- Reads the numeral at the start of a text. -/
def read (cs : List Char) : Reading :=
  let (negative, body) := splitSign (cs.dropWhile isSpace)
  let (whole, rest) := splitDigits body
  let (fraction, hasPoint, rest) :=
    match rest with
    | '.' :: more => let (ds, rest) := splitDigits more; (ds, true, rest)
    | _ => ([], false, rest)
  let (exponent, hasExponent, complete, rest) :=
    match rest with
    | c :: more =>
      if c = 'e' ∨ c = 'E' then
        let (e, complete, rest) := readExponent more
        (e, true, complete, rest)
      else (0, false, true, rest)
    | [] => (0, false, true, [])
  let hasDigits := !whole.isEmpty || !fraction.isEmpty
  let atEnd := (rest.dropWhile isSpace).isEmpty
  let extent :=
    if hasDigits && atEnd && complete then
      if hasPoint || hasExponent then .number else .integer
    else if hasDigits && (hasPoint || hasExponent) && (complete || (hasPoint && hasExponent)) then
      .numberPrefix
    else .integerPrefix
  ⟨negative, whole, fraction, exponent, extent⟩

/-- Moves a positive exponent into the significand as far as 64 bits allow. -/
def widen (n : Nat) : (exponent : Nat) → Nat × Nat
  | 0 => (n, 0)
  | exponent + 1 =>
    if n < 1844674407370954956 then widen (n * 10) exponent else (n, exponent + 1)

/-- Takes zeros off the end of the significand to make up for a negative exponent. -/
def narrow (n : Nat) : (exponent : Nat) → Nat × Nat
  | 0 => (n, 0)
  | exponent + 1 => if n % 10 = 0 then narrow (n / 10) exponent else (n, exponent + 1)

/-- The number that `significand · 10 ^ exponent` gives. One too large for the multiplication to
carry out is infinite. -/
def scaled (negative : Bool) (significand : Nat) (exponent : Int) : Binary64 :=
  if significand = 0 then .zero negative
  else
    let (n, places) :=
      if 0 < exponent then
        let (n, left) := widen significand exponent.natAbs
        (n, (left : Int))
      else
        let (n, left) := narrow significand exponent.natAbs
        (n, -(left : Int))
    let x := ((Wide.ofNat n).shift places).toBinary64
    if x.isNaN then .infinite negative else { x with negative }

namespace Reading

def toBinary64 (r : Reading) : Binary64 :=
  let (n, dropped) := takeSignificand 0 r.whole
  let (m, left) := takeSignificand n r.fraction
  scaled r.negative m (r.exponent + dropped - (r.fraction.length - left : Nat))

/-- The integer that the digits before the point give, with the sign. -/
def wholeInt (r : Reading) : Int :=
  if r.negative then -(digitsValue r.whole : Int) else digitsValue r.whole

end Reading

def fitsWord (i : Int) : Bool := -9223372036854775808 ≤ i && i ≤ 9223372036854775807

/-- An integer or a number that is none. -/
inductive Number where
  | integer (i : Int)
  | real (x : Binary64)
  deriving DecidableEq

/-- The number that a whole text is, if it is one. An integer stays exact if it fits 64 bits. -/
def number? (cs : List Char) : Option Number :=
  let r := read cs
  match r.extent with
  | .integer => some (if fitsWord r.wholeInt then .integer r.wholeInt else .real r.toBinary64)
  | .number => some (.real r.toBinary64)
  | _ => none

/-- The number that a text begins with; zero if there is none. -/
def leadingNumber (cs : List Char) : Number :=
  let r := read cs
  match r.extent with
  | .integer | .integerPrefix =>
    if fitsWord r.wholeInt then .integer r.wholeInt else .real r.toBinary64
  | .number | .numberPrefix => .real r.toBinary64

end ShopTables.NumericText
