import ShopTables.Binary64.Shortest

/-!
# Wide numbers — two numbers in place of one

A wide number is a sum that is not carried out: its head, and a tail that is small beside the head,
so that together they have about twice the digits of one number. `Wide.mul` multiplies two of them
by cutting the heads in half, because products of halves are exact.

Decimals are turned into numbers and back by way of wide numbers. The power of ten is made up of
steps of a hundred places, ten places and one place, and every step loses a little, so that for
large powers the outcome may be a neighbour of the nearest number. The steps and their order are
therefore part of what `Wide.shift` and `Binary64.rounded` mean.
-/

namespace ShopTables

/-- The sum of a head and a tail that is small beside it. -/
structure Wide where
  head : Binary64
  tail : Binary64
  deriving DecidableEq

namespace Wide

/-! ### Making them -/

/-- The wide number nearest to `num / den`: the nearest number, and the one nearest to what is then
missing. -/
def ofRatio (num den : Nat) : Wide :=
  let head := Binary64.ofRatio false num den
  let missing : Int := (num * head.denominator : Nat) - (head.numerator * den : Nat)
  ⟨head, Binary64.ofRatio (missing < 0) missing.natAbs (den * head.denominator)⟩

def powerOfTen (exponent : Int) : Wide :=
  ofRatio (Nat.pow 10 exponent.toNat) (Nat.pow 10 (-exponent).toNat)

/-- A natural number. It has no tail if its head does not fit 64 bits. -/
def ofNat (n : Nat) : Wide :=
  let x := ofRatio n 1
  if x.head.numerator < Nat.pow 2 64 * x.head.denominator then x else ⟨x.head, .zero false⟩

/-! ### Products -/

/-- A number without the lower half of its digits. -/
def upperHalf (x : Binary64) : Binary64 :=
  { x with
    fraction := ⟨x.fraction.val / Nat.pow 2 26 * Nat.pow 2 26,
      Nat.lt_of_le_of_lt (Nat.div_mul_le_self _ _) x.fraction.isLt⟩ }

/-- The product of two wide numbers, in which the product of the tails is left out. -/
def mul (x y : Wide) : Wide :=
  let upperX := upperHalf x.head
  let upperY := upperHalf y.head
  let lowerX := x.head.sub upperX
  let lowerY := y.head.sub upperY
  let outer := upperX.mul upperY
  let inner := (upperX.mul lowerY).add (lowerX.mul upperY)
  let product := outer.add inner
  let missing := ((outer.sub product).add inner).add (lowerX.mul lowerY)
  let rest := ((x.head.mul y.tail).add (x.tail.mul y.head)).add missing
  let head := product.add rest
  ⟨head, (product.sub head).add rest⟩

/-- Moves the point by `count` steps of `step` places each. -/
def shiftBy (step : Int) (count : Nat) (x : Wide) : Wide :=
  Nat.repeat (·.mul (powerOfTen step)) count x

/-- The product with a power of ten, by steps of a hundred places first, then of ten, then of
one. -/
def shift (exponent : Int) (x : Wide) : Wide :=
  let places := exponent.natAbs
  let towards := exponent.sign
  ((x.shiftBy (towards * 100) (places / 100)).shiftBy (towards * 10) (places % 100 / 10)).shiftBy
    towards (places % 10)

/-! ### Back to numbers and digits -/

/-- The sum, carried out. -/
def toBinary64 (x : Wide) : Binary64 := x.head.add x.tail

/-- The integer towards zero, of head and tail each. -/
def truncate (x : Wide) : Int := x.head.truncate + x.tail.truncate

/-- The largest number below 2 ^ 63, with the point moved. -/
def bound (places : Int) : Binary64 := Binary64.ofDecimal false 9223372036854774784 places

/-- Divides `x` of `x · 10 ^ exponent` by steps of `step` places while its head satisfies a
predicate, `fuel` steps at most. -/
def rescale (step : Int) (f : Binary64 → Bool) : (fuel : Nat) → Wide × Int → Wide × Int
  | 0, s => s
  | fuel + 1, (x, exponent) =>
    if f x.head then rescale step f fuel (x.mul (powerOfTen (-step)), exponent + step)
    else (x, exponent)

/-- A finite positive number as `x · 10 ^ exponent`, where `x` has eighteen or nineteen digits
before the point. From any number the window is reached in a dozen steps of each size. -/
def window (x : Binary64) : Wide × Int :=
  let above (places : Int) (y : Binary64) : Bool := (bound places).compareTo y == .lt
  let below (places : Int) (y : Binary64) : Bool := y.compareTo (bound places) == .lt
  let s := (⟨x, .zero false⟩, 0)
  if above 0 x then
    rescale 1 (above 0) 12 (rescale 10 (above 10) 12 (rescale 100 (above 100) 12 s))
  else
    rescale (-1) (below (-1)) 12
      (rescale (-10) (below (-11)) 12 (rescale (-100) (below (-101)) 12 s))

end Wide

/-- The first `count` digits, eighteen at most, of a finite number other than zero. They are
rounded, a half going up, from the integer that remains in the window. -/
def Binary64.rounded (count : Nat) (x : Binary64) : Decimal :=
  let (w, exponent) := Wide.window { x with negative := false }
  let digits := w.truncate.toNat
  let extra := decimalLength digits - count
  Decimal.ofCoefficient ((2 * digits + Nat.pow 10 extra) / (2 * Nat.pow 10 extra)) (exponent + extra)

end ShopTables
