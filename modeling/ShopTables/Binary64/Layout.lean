import ShopTables.Binary64.Shortest

/-!
# Written numbers

How a decimal is set out is a handful of decisions, kept in one `Layout` for each place that
writes numbers: which sizes are written positionally, whether a whole number keeps a fraction,
and how an exponent looks. `Layout.write` is the one function that follows them.
-/

namespace ShopTables

/-- How a decimal is set out. -/
structure Layout where
  /-- The least exponent that is written positionally; below it an exponent is shown. -/
  leastExponent : Option Int
  /-- The greatest exponent that is written positionally. -/
  greatestExponent : Option Int
  /-- Does a whole number written positionally end in a point and a zero? -/
  wholeFraction : Bool
  /-- Does a single digit before an exponent get a point and a zero? -/
  digitFraction : Bool
  /-- The least count of digits in an exponent. -/
  exponentDigits : Nat
  deriving DecidableEq

namespace Layout

/-- Is an exponent within the range that is written positionally? -/
def isPositional (l : Layout) (exponent : Int) : Bool :=
  l.leastExponent.all (· ≤ exponent) && l.greatestExponent.all (exponent ≤ ·)

/-- The digits of an exponent, with its sign and filled up with zeros. -/
def writeExponent (l : Layout) (exponent : Int) : List Char :=
  let digits := Nat.toDigits 10 exponent.natAbs
  'e' :: (if exponent < 0 then '-' else '+')
    :: (List.replicate (l.exponentDigits - digits.length) '0' ++ digits)

/-- A decimal without its sign. -/
def writeDecimal (l : Layout) (d : Decimal) : List Char :=
  let exponent := d.point - 1
  if l.isPositional exponent then
    if d.point ≤ 0 then '0' :: '.' :: (List.replicate (-d.point).toNat '0' ++ d.digits)
    else if d.digits.length ≤ d.point.toNat then
      d.digits ++ List.replicate (d.point.toNat - d.digits.length) '0'
        ++ (if l.wholeFraction then ['.', '0'] else [])
    else d.digits.take d.point.toNat ++ '.' :: d.digits.drop d.point.toNat
  else
    let fraction :=
      match d.digits.drop 1 with
      | [] => if l.digitFraction then ['.', '0'] else []
      | ds => '.' :: ds
    d.digits.take 1 ++ fraction ++ l.writeExponent exponent

/-- Zero without its sign. -/
def writeZero (l : Layout) : List Char := if l.wholeFraction then ['0', '.', '0'] else ['0']

end Layout

namespace Binary64

/-- The sign of a number as it is written. -/
def signText (x : Binary64) : List Char := if x.negative then ['-'] else []

/-- A finite number in its shortest decimal, set out by `l`. -/
def write (l : Layout) (tie : Tie) (x : Binary64) : List Char :=
  x.signText ++ (if x.isZero then l.writeZero else l.writeDecimal (x.shortest tie))

/-- Numbers shown as text have the fewest digits that read back, are written positionally
whatever their size, and a whole number shows no fraction. -/
def displayLayout : Layout := ⟨none, none, false, false, 1⟩

def display (x : Binary64) : List Char :=
  if x.isNaN then ['N', 'a', 'N']
  else if x.isFinite then x.write displayLayout .up
  else x.signText ++ ['i', 'n', 'f']

end Binary64

end ShopTables
