import ShopTables.Binary64.Basic

/-!
# Decimals of a number

A decimal is a run of digits and the place of its point. `shortest` finds, for a finite number,
the fewest digits that read back as that number, and among those the nearest: it walks the
decimal grids from coarse to fine and tests the number's two neighbours on each in exact integer
arithmetic.
-/

namespace ShopTables

/-- The decimal `0.d₁d₂d₃… · 10 ^ point`, for `digits = d₁ d₂ d₃ …`. -/
structure Decimal where
  digits : List Char
  point : Int
  deriving DecidableEq

namespace Decimal

/-- The digits of a coefficient without the zeros at its end. -/
def significantDigits (coefficient : Nat) : List Char :=
  ((Nat.toDigits 10 coefficient).reverse.dropWhile (· == '0')).reverse

/-- The decimal `coefficient · 10 ^ exponent`, for a positive coefficient. -/
def ofCoefficient (coefficient : Nat) (exponent : Int) : Decimal :=
  ⟨significantDigits coefficient, Binary64.decimalLength coefficient + exponent⟩

end Decimal

/-- Which neighbour takes a number that lies half-way between two. -/
inductive Tie where
  | even
  | up
  deriving DecidableEq

namespace Binary64

/-- The place of the point: `10 ^ (pointPlace - 1) ≤ num / den < 10 ^ pointPlace`. -/
def pointPlace (num den : Nat) : Int :=
  let e : Int := (decimalLength num : Int) - decimalLength den
  if den * Nat.pow 10 e.toNat ≤ num * Nat.pow 10 (-e).toNat then e + 1 else e

/-- The sizes that read back as a number, in quarters of its last place: all that is closer to it
than to any other number. The two ends belong to it if its significand is even. -/
structure Interval where
  low : Nat
  high : Nat
  closed : Bool

/-- The interval of a finite number, in units of a quarter of its last place. -/
def interval (x : Binary64) : Interval where
  low := if x.significand = 4503599627370496 ∧ 1 < x.exponent.val
    then 4 * x.significand - 1 else 4 * x.significand - 2
  high := 4 * x.significand + 2
  closed := x.significand % 2 == 0

/-- Does `num / den` lie in the interval? -/
def Interval.holds (i : Interval) (num den : Nat) : Bool :=
  if i.closed then i.low * den ≤ num && num ≤ i.high * den
  else i.low * den < num && num < i.high * den

/-- On the grid `10 ^ place`, the neighbour of the number that reads back as it, if there is one;
`unit / den` is a quarter of its last place. -/
def onGrid? (tie : Tie) (m : Nat) (i : Interval) (unit den : Nat) (place : Int) : Option Nat :=
  -- `value / step` counts in steps of the grid
  let step := den * Nat.pow 10 place.toNat
  let scaled := unit * Nat.pow 10 (-place).toNat
  let value := 4 * m * scaled
  let down := value / step
  let up := down + 1
  let fits (k : Nat) : Bool := i.holds (k * step) scaled
  match fits down, fits up with
  | false, false => none
  | true, false => some down
  | false, true => some up
  | true, true =>
    let rest := value - down * step
    match compare (2 * rest) step with
    | .lt => some down
    | .gt => some up
    | .eq =>
      match tie with
      | .up => some up
      | .even => some (if down % 2 = 0 then down else up)

/-- Tries `fuel` grids from `place` downwards. -/
def firstGrid (tie : Tie) (m : Nat) (i : Interval) (unit den : Nat) : Nat → Int → Nat × Int
  | 0, place => (4 * m * unit * Nat.pow 10 (-place).toNat / (den * Nat.pow 10 place.toNat), place)
  | fuel + 1, place =>
    match onGrid? tie m i unit den place with
    | some k => (k, place)
    | none => firstGrid tie m i unit den fuel (place - 1)

/-- The fewest digits that read back as a finite number other than zero, and of those the nearest.
Seventeen digits always suffice. -/
def shortest (tie : Tie) (x : Binary64) : Decimal :=
  let unit := Nat.pow 2 (x.scale - 2).toNat
  let den := Nat.pow 2 (2 - x.scale).toNat
  let place := pointPlace x.numerator x.denominator
  let (k, p) := firstGrid tie x.significand x.interval unit den 17 (place - 1)
  Decimal.ofCoefficient k p

end Binary64

end ShopTables
