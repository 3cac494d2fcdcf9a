/-!
# Binary64 — numbers of the double format, as plain data

A number is its three fields: sign, biased exponent, fraction. Every finite one is
`significand · 2 ^ scale` exactly, and every operation here is exact arithmetic on that pair
followed by one rounding, `ofRatio`, to the nearest number (of two equally near ones, to the one
with the even significand). Nothing is left to the machine, so equations about numbers are
equations about natural numbers.
-/

namespace ShopTables

/-- A number of the double format: sign, biased exponent and fraction. -/
structure Binary64 where
  negative : Bool
  exponent : Fin 2048
  fraction : Fin 4503599627370496
  deriving DecidableEq

namespace Binary64

/-! ### Fields and values -/

/-- The number whose 64 bits, sign first, are those of `n`. -/
def ofBits (n : Nat) : Binary64 where
  negative := n / Nat.pow 2 63 % 2 == 1
  exponent := Fin.ofNat 2048 (n / Nat.pow 2 52)
  fraction := Fin.ofNat 4503599627370496 n

/-- The 64 bits of a number, sign first. -/
def toBits (x : Binary64) : Nat :=
  (if x.negative then Nat.pow 2 63 else 0) + x.exponent.val * Nat.pow 2 52 + x.fraction.val

def isFinite (x : Binary64) : Bool := x.exponent.val != 2047

def isNaN (x : Binary64) : Bool := x.exponent.val == 2047 && x.fraction.val != 0

def isZero (x : Binary64) : Bool := x.exponent.val == 0 && x.fraction.val == 0

def zero (negative : Bool) : Binary64 := ⟨negative, 0, 0⟩

def infinite (negative : Bool) : Binary64 := ⟨negative, 2047, 0⟩

def nan : Binary64 := ⟨false, 2047, 2251799813685248⟩

def significand (x : Binary64) : Nat :=
  if x.exponent.val = 0 then x.fraction.val else 4503599627370496 + x.fraction.val

/-- The power of two in a finite number's size. -/
def scale (x : Binary64) : Int := if x.exponent.val = 0 then -1074 else x.exponent.val - 1075

/-- A finite number's size is `numerator / denominator`. -/
def numerator (x : Binary64) : Nat := x.significand * Nat.pow 2 x.scale.toNat

/-- A finite number's size is `numerator / denominator`. -/
def denominator (x : Binary64) : Nat := Nat.pow 2 (-x.scale).toNat

def negate (x : Binary64) : Binary64 := { x with negative := !x.negative }

/-! ### Rounding -/

/-- `num / den` to the nearest integer; of two equally near ones, to the even one. -/
def roundHalfEven (num den : Nat) : Nat :=
  let q := num / den
  let r := num % den
  if den < 2 * r ∨ (2 * r = den ∧ q % 2 = 1) then q + 1 else q

/-- The number `m · 2 ^ q`, for `m` up to 2 ^ 53 and, unless `q` is the least scale, from 2 ^ 52
on; infinite when that is too large. -/
def ofScaled (negative : Bool) (m : Nat) (q : Int) : Binary64 :=
  if m < 4503599627370496 then ⟨negative, 0, Fin.ofNat _ m⟩
  else
    let (m, q) := if m = 9007199254740992 then (4503599627370496, q + 1) else (m, q)
    if 971 < q then infinite negative
    else ⟨negative, Fin.ofNat _ (q + 1075).toNat, Fin.ofNat _ (m - 4503599627370496)⟩

/-- The number nearest to `num / den`. -/
def ofRatio (negative : Bool) (num den : Nat) : Binary64 :=
  if num = 0 then zero negative
  else
    let d : Int := (Nat.log2 num : Int) - Nat.log2 den
    let below := num * Nat.pow 2 (-d).toNat < den * Nat.pow 2 d.toNat
    let q := max (if below then d - 53 else d - 52) (-1074)
    ofScaled negative (roundHalfEven (num * Nat.pow 2 (-q).toNat) (den * Nat.pow 2 q.toNat)) q

def ofInt (i : Int) : Binary64 := ofRatio (i < 0) i.natAbs 1

/-- How many decimal digits a positive natural number has. -/
def decimalLength (n : Nat) : Nat := (Nat.toDigits 10 n).length

/-- The number nearest to `coefficient · 10 ^ exponent`. Sizes beyond the format are settled from
the count of digits alone. -/
def ofDecimal (negative : Bool) (coefficient : Nat) (exponent : Int) : Binary64 :=
  if coefficient = 0 then zero negative
  else
    let length := (decimalLength coefficient : Int) + exponent
    if 400 < length then infinite negative
    else if length < -400 then zero negative
    else ofRatio negative (coefficient * Nat.pow 10 exponent.toNat) (Nat.pow 10 (-exponent).toNat)

/-! ### Arithmetic -/

def mul (x y : Binary64) : Binary64 :=
  let negative := x.negative != y.negative
  if x.isNaN || y.isNaN then nan
  else if !x.isFinite || !y.isFinite then
    if x.isZero || y.isZero then nan else infinite negative
  else ofRatio negative (x.numerator * y.numerator) (x.denominator * y.denominator)

def div (x y : Binary64) : Binary64 :=
  let negative := x.negative != y.negative
  if x.isNaN || y.isNaN then nan
  else if !x.isFinite then if y.isFinite then infinite negative else nan
  else if !y.isFinite then zero negative
  else if y.isZero then if x.isZero then nan else infinite negative
  else ofRatio negative (x.numerator * y.denominator) (x.denominator * y.numerator)

def signedNumerator (x : Binary64) : Int := if x.negative then -x.numerator else x.numerator

def add (x y : Binary64) : Binary64 :=
  if x.isNaN || y.isNaN then nan
  else if !x.isFinite then if y.isFinite || x.negative == y.negative then x else nan
  else if !y.isFinite then y
  else
    let n := x.signedNumerator * y.denominator + y.signedNumerator * x.denominator
    if n = 0 then zero (x.negative && y.negative)
    else ofRatio (n < 0) n.natAbs (x.denominator * y.denominator)

def sub (x y : Binary64) : Binary64 := x.add y.negate

/-- One less than a number, rounded. -/
def pred (x : Binary64) : Binary64 :=
  if !x.isFinite then x
  else
    let n := x.signedNumerator - x.denominator
    ofRatio (n < 0) n.natAbs x.denominator

/-- The integer towards zero, kept within the 64-bit range; a NaN gives zero. -/
def truncate (x : Binary64) : Int :=
  if x.isNaN then 0
  else
    let size : Int :=
      if x.isFinite then (x.numerator / x.denominator : Nat) else 9223372036854775808
    if x.negative then max (-size) (-9223372036854775808) else min size 9223372036854775807

/-! ### Order -/

/-- Compares `num / den` with `num' / den'`. -/
def compareRatio (num : Int) (den : Nat) (num' : Int) (den' : Nat) : Ordering :=
  compare (num * den') (num' * den)

/-- The place of a number among the reals with both infinities. -/
def rank (x : Binary64) : Int := if x.isFinite then 0 else if x.negative then -1 else 1

/-- Compares two numbers that are not NaN by value, so that both zeros are equal. -/
def compareTo (x y : Binary64) : Ordering :=
  if x.isFinite && y.isFinite then
    compareRatio x.signedNumerator x.denominator y.signedNumerator y.denominator
  else compare x.rank y.rank

end Binary64

end ShopTables
