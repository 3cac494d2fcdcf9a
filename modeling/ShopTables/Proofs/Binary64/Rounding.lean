import Mathlib.Tactic.Linarith
import Mathlib.Tactic.Ring
import ShopTables.Binary64.Shortest
import ShopTables.Proofs.Binary64.Integers

/-!
# The sizes that are read as a number

```
        n - u/2                n                n + u/2
    ------[--------------------•--------------------]------
          all integers here have the nearest number n
```

The interval of a number (`interval`) has the sizes that are nearer to it than to any other number.
For a number that is an integer `n`, the integers of its interval are `n` alone as long as its last
place `u` counts for one at most (`eq_of_holds`), and all of them have that number as the nearest
one (`ofRatio_of_holds`). Below the number, where the next one is nearer if the significand is the
least, the interval is only half as wide, and an integer there is rounded in a finer last place.
-/

namespace ShopTables.Binary64

/-! ### Rounding to the nearest integer -/

/-- A ratio within a half of `m` is rounded to `m`, also at the ends if `m` is even. -/
theorem roundHalfEven_eq {num den m : Nat} (hden : 0 < den) (hlow : 2 * m * den ≤ 2 * num + den)
    (hhigh : 2 * num ≤ (2 * m + 1) * den)
    (hodd : m % 2 = 1 → 2 * m * den < 2 * num + den ∧ 2 * num < (2 * m + 1) * den) :
    roundHalfEven num den = m := by
  have hdiv : den * (num / den) + num % den = num := Nat.div_add_mod num den
  have hmod : num % den < den := Nat.mod_lt num hden
  rw [roundHalfEven]
  generalize num / den = q at hdiv ⊢
  generalize num % den = r at hdiv hmod ⊢
  subst hdiv
  -- the quotient is `m` or the number before it
  have hle : q ≤ m := by
    by_contra hlt
    have hmul : (m + 1) * den ≤ q * den := Nat.mul_le_mul_right den (Nat.not_le.mp hlt)
    nlinarith
  have hge : m ≤ q + 1 := by
    by_contra hlt
    have hmul : (q + 2) * den ≤ m * den := Nat.mul_le_mul_right den (Nat.not_le.mp hlt)
    nlinarith
  obtain rfl | rfl : m = q ∨ m = q + 1 := by omega
  · have hbelow : 2 * r ≤ den := by nlinarith
    have htie : ¬(2 * r = den ∧ m % 2 = 1) := by
      rintro ⟨heq, hm⟩
      have := (hodd hm).2
      nlinarith
    rw [if_neg]
    rintro (hlt | h)
    · omega
    · exact htie h
  · have habove : den ≤ 2 * r := by nlinarith
    rw [if_pos]
    by_cases hlt : den < 2 * r
    · exact .inl hlt
    · refine .inr ⟨by omega, ?_⟩
      by_contra heven
      have := (hodd (by omega)).1
      nlinarith

/-! ### The interval in quarters of the last place -/

/-- A quarter of a number's last place is `quarterNum / quarterDen`. -/
def quarterNum (x : Binary64) : Nat := Nat.pow 2 (x.scale - 2).toNat

/-- A quarter of a number's last place is `quarterNum / quarterDen`. -/
def quarterDen (x : Binary64) : Nat := Nat.pow 2 (2 - x.scale).toNat

section

variable {x : Binary64} {n k : Nat}

theorem quarterNum_pos (x : Binary64) : 0 < x.quarterNum := Nat.two_pow_pos _

theorem quarterDen_pos (x : Binary64) : 0 < x.quarterDen := Nat.two_pow_pos _

/-- A number that is an integer, in quarters of its last place. -/
theorem quarters_eq (h : x.numerator = n * x.denominator) :
    4 * x.significand * x.quarterNum = n * x.quarterDen := by
  rw [numerator, denominator, Nat.pow_eq, Nat.pow_eq] at h
  rw [quarterNum, quarterDen, Nat.pow_eq, Nat.pow_eq]
  have hpow : 4 * 2 ^ (x.scale - 2).toNat * 2 ^ (-x.scale).toNat
      = 2 ^ (2 - x.scale).toNat * 2 ^ x.scale.toNat := by
    rw [show 4 = 2 ^ 2 from rfl, ← pow_add, ← pow_add, ← pow_add]
    congr 1
    omega
  refine Nat.eq_of_mul_eq_mul_right (Nat.two_pow_pos (-x.scale).toNat) ?_
  calc 4 * x.significand * 2 ^ (x.scale - 2).toNat * 2 ^ (-x.scale).toNat
      = x.significand * (4 * 2 ^ (x.scale - 2).toNat * 2 ^ (-x.scale).toNat) := by ring
    _ = x.significand * 2 ^ x.scale.toNat * 2 ^ (2 - x.scale).toNat := by rw [hpow]; ring
    _ = n * 2 ^ (2 - x.scale).toNat * 2 ^ (-x.scale).toNat := by rw [h]; ring

end

theorem Interval.holds_iff {i : Interval} {num den : Nat} :
    i.holds num den = true ↔ (i.low * den ≤ num ∧ num ≤ i.high * den)
      ∧ (i.closed = false → i.low * den < num ∧ num < i.high * den) := by
  rw [holds]
  cases i.closed with
  | true => simp
  | false =>
    simp only [Bool.false_eq_true, if_false, Bool.and_eq_true, decide_eq_true_eq, forall_const]
    omega

/-- What lies between the ends is in the interval, whether these are in it or not. -/
theorem Interval.holds_of_lt {i : Interval} {num den : Nat} (hlow : i.low * den < num)
    (hhigh : num < i.high * den) : i.holds num den = true :=
  holds_iff.mpr ⟨⟨hlow.le, hhigh.le⟩, fun _ => ⟨hlow, hhigh⟩⟩

/-! ### Numbers that are integers -/

/-- A number's size is the positive integer `n`. -/
structure HasSize (x : Binary64) (n : Nat) : Prop where
  finite : x.isFinite = true
  pos : 0 < n
  eq : x.numerator = n * x.denominator

namespace HasSize

variable {x : Binary64} {n k : Nat}

theorem log2_eq (h : x.HasSize n) : (Nat.log2 n : Int) = 52 + x.scale :=
  log2_of_integral (Nat.ne_of_gt h.pos) h.eq

/-- An integer has no place among the numbers of the least scale, so all bits count. -/
theorem significand_range (h : x.HasSize n) :
    4503599627370496 ≤ x.significand ∧ x.significand < 9007199254740992 := by
  have hne : x.significand ≠ 0 := by
    intro hzero
    have heq := h.eq
    rw [numerator, hzero, Nat.zero_mul] at heq
    exact Nat.mul_ne_zero (Nat.ne_of_gt h.pos) (Nat.ne_of_gt (Nat.two_pow_pos _)) heq.symm
  rcases log2_significand x hne with ⟨hscale, -⟩ | hlog
  · have := h.log2_eq
    omega
  · rw [Nat.log2_eq_iff hne] at hlog
    omega

/-- The interval is half as wide below the least significand. -/
theorem low_cases (h : x.HasSize n) :
    (x.significand ≠ 4503599627370496 ∧ x.interval.low = 4 * x.significand - 2)
      ∨ (x.significand = 4503599627370496 ∧ x.interval.low = 4 * x.significand - 1) := by
  have hexponent : 1 < x.exponent.val := by
    have hlog := h.log2_eq
    rw [scale] at hlog
    split_ifs at hlog
    · omega
    · omega
  rw [interval]
  by_cases hleast : x.significand = 4503599627370496
  · exact .inr ⟨hleast, if_pos ⟨hleast, hexponent⟩⟩
  · exact .inl ⟨hleast, if_neg fun hborder => hleast hborder.1⟩

theorem high_eq (x : Binary64) : x.interval.high = 4 * x.significand + 2 := rfl

/-- As long as the last place counts for one at most, the interval has no other integer. -/
theorem eq_of_holds (h : x.HasSize n) (hscale : x.scale ≤ 0)
    (hholds : x.interval.holds (k * x.quarterDen) x.quarterNum = true) : k = n := by
  have hnum : x.quarterNum = 1 := by
    rw [quarterNum, Int.toNat_eq_zero.mpr (by omega), Nat.pow_eq, Nat.pow_zero]
  have hden : 4 ≤ x.quarterDen := by
    rw [quarterDen, Nat.pow_eq]
    exact Nat.pow_le_pow_right Nat.two_pos (show 2 ≤ (2 - x.scale).toNat by omega)
  have heq := quarters_eq h.eq
  obtain ⟨⟨hlow, hhigh⟩, -⟩ := Interval.holds_iff.mp hholds
  have hcases := h.low_cases
  have hpos := h.significand_range.1
  rw [hnum, Nat.mul_one] at heq hlow hhigh
  rw [high_eq] at hhigh
  rcases Nat.lt_trichotomy k n with hlt | rfl | hlt
  · have hmul := Nat.mul_le_mul_right x.quarterDen (Nat.succ_le_of_lt hlt)
    rw [Nat.succ_mul] at hmul
    omega
  · rfl
  · have hmul := Nat.mul_le_mul_right x.quarterDen (Nat.succ_le_of_lt hlt)
    rw [Nat.succ_mul] at hmul
    omega

/-! ### All integers of an interval have one nearest number -/

/-- An integer of 54 + `d` bits, within half a last place of `m · 2 ^ (d + 1)`. -/
theorem ofRatio_near {negative : Bool} {m d : Nat} (hleast : 9007199254740992 * 2 ^ d ≤ k)
    (hmost : m < 9007199254740992) (hlow : (4 * m - 2) * 2 ^ d ≤ 2 * k)
    (hhigh : 2 * k ≤ (4 * m + 2) * 2 ^ d)
    (hodd : m % 2 = 1 → (4 * m - 2) * 2 ^ d < 2 * k ∧ 2 * k < (4 * m + 2) * 2 ^ d) :
    ofRatio negative k 1 = ofScaled negative m (d + 1) := by
  have hw : 0 < 2 ^ d := Nat.two_pow_pos d
  have hk : k ≠ 0 := by omega
  have hlog : Nat.log2 k = 53 + d := by
    rw [Nat.log2_eq_iff hk, show 53 + d + 1 = 54 + d by omega, pow_add, pow_add]
    constructor
    · exact hleast
    · have hbound : (4 * m + 2) * 2 ^ d ≤ 36028797018963966 * 2 ^ d :=
        Nat.mul_le_mul_right _ (by omega)
      omega
  rw [ofRatio_integer hk (q := d + 1) (by omega)]
  have hscale : ((d : Int) + 1).toNat = d + 1 := by omega
  have hnone : (-((d : Int) + 1)).toNat = 0 := by omega
  rw [hscale, hnone, Nat.pow_eq, Nat.pow_eq, Nat.pow_zero, Nat.mul_one, pow_succ']
  congr 1
  -- all in multiples of half the last place
  have hcentre : 2 * m * (2 * 2 ^ d) = 4 * m * 2 ^ d := by ring
  have hend : (2 * m + 1) * (2 * 2 ^ d) = 4 * m * 2 ^ d + 2 * 2 ^ d := by ring
  rw [Nat.sub_mul] at hlow hodd
  rw [Nat.add_mul] at hhigh hodd
  apply roundHalfEven_eq
  · omega
  · omega
  · omega
  · omega

/-- An integer just below the least significand is rounded up to it. -/
theorem ofRatio_below {negative : Bool} {d : Nat} (hlow : 18014398509481983 * 2 ^ d ≤ 2 * k)
    (hless : k < 9007199254740992 * 2 ^ d) :
    ofRatio negative k 1 = ofScaled negative 4503599627370496 (d + 1) := by
  have hw : 0 < 2 ^ d := Nat.two_pow_pos d
  have hk : k ≠ 0 := by omega
  have hlog : Nat.log2 k = 52 + d := by
    rw [Nat.log2_eq_iff hk, show 52 + d + 1 = 53 + d by omega, pow_add, pow_add]
    omega
  rw [ofRatio_integer hk (q := d) (by omega)]
  have hnone : (-(d : Int)).toNat = 0 := by omega
  -- in the finer last place the significand is full
  have hround : roundHalfEven k (2 ^ d) = 9007199254740992 := by
    apply roundHalfEven_eq hw
    · omega
    · omega
    · intro h
      cases h
  rw [Int.toNat_natCast, hnone, Nat.pow_eq, Nat.pow_eq, Nat.pow_zero, Nat.mul_one, hround,
    ofScaled_carried]

/-- With a last place of two at least, the doubles of the integers in the interval lie between its
ends, counted in halves of the last place. -/
theorem holds_halves {d : Nat} (hscale : x.scale = d + 1)
    (hholds : x.interval.holds (k * x.quarterDen) x.quarterNum = true) :
    (x.interval.low * 2 ^ d ≤ 2 * k ∧ 2 * k ≤ (4 * x.significand + 2) * 2 ^ d)
      ∧ (x.interval.closed = false →
        x.interval.low * 2 ^ d < 2 * k ∧ 2 * k < (4 * x.significand + 2) * 2 ^ d) := by
  have hhalf : 2 * x.quarterNum = 2 ^ d * x.quarterDen := by
    rw [quarterNum, quarterDen, Nat.pow_eq, Nat.pow_eq, ← pow_succ', ← pow_add]
    congr 1
    omega
  have hscaled : ∀ a : Nat, 2 * (a * x.quarterNum) = a * 2 ^ d * x.quarterDen := fun a => by
    rw [Nat.mul_left_comm, hhalf, Nat.mul_assoc]
  obtain ⟨⟨hlow, hhigh⟩, hopen⟩ := Interval.holds_iff.mp hholds
  rw [high_eq] at hhigh hopen
  refine ⟨⟨?_, ?_⟩, fun hclosed => ⟨?_, ?_⟩⟩
  · refine Nat.le_of_mul_le_mul_right ?_ x.quarterDen_pos
    rw [← hscaled, Nat.mul_assoc]
    omega
  · refine Nat.le_of_mul_le_mul_right ?_ x.quarterDen_pos
    rw [← hscaled, Nat.mul_assoc]
    omega
  · refine Nat.lt_of_mul_lt_mul_right (a := x.quarterDen) ?_
    rw [← hscaled, Nat.mul_assoc]
    have := (hopen hclosed).1
    omega
  · refine Nat.lt_of_mul_lt_mul_right (a := x.quarterDen) ?_
    rw [← hscaled, Nat.mul_assoc]
    have := (hopen hclosed).2
    omega

/-- Every integer of the interval has the number as the nearest one. -/
theorem ofRatio_of_holds (h : x.HasSize n)
    (hholds : x.interval.holds (k * x.quarterDen) x.quarterNum = true) :
    ofRatio x.negative k 1 = x := by
  rcases Int.lt_or_le x.scale 1 with hsmall | hlarge
  · obtain rfl := h.eq_of_holds (by omega) hholds
    exact ofRatio_one h.finite (Nat.ne_of_gt h.pos) h.eq
  obtain ⟨d, hscale⟩ : ∃ d : Nat, x.scale = d + 1 := ⟨(x.scale - 1).toNat, by omega⟩
  obtain ⟨⟨hlow, hhigh⟩, hopen⟩ := holds_halves hscale hholds
  obtain ⟨hleast, hmost⟩ := h.significand_range
  have hwide : (4 * x.significand - 2) * 2 ^ d ≤ x.interval.low * 2 ^ d := by
    have hcases := h.low_cases
    exact Nat.mul_le_mul_right _ (by omega)
  have hself : ofScaled x.negative x.significand (d + 1) = x := by
    rw [← hscale, ofScaled_significand h.finite]
  by_cases hk : 9007199254740992 * 2 ^ d ≤ k
  · refine (ofRatio_near hk hmost (hwide.trans hlow) hhigh fun hodd => ?_).trans hself
    have hclosed : x.interval.closed = false := by
      rw [interval]
      exact beq_false_of_ne (by omega)
    exact ⟨hwide.trans_lt (hopen hclosed).1, (hopen hclosed).2⟩
  · -- so far down the interval reaches only from the least significand
    obtain ⟨hmore, -⟩ | ⟨hborder, hlowest⟩ := h.low_cases
    · have hfar : 18014398509481986 * 2 ^ d ≤ (4 * x.significand - 2) * 2 ^ d :=
        Nat.mul_le_mul_right _ (by omega)
      omega
    · rw [hborder] at hself
      rw [hlowest, hborder] at hlow
      exact (ofRatio_below hlow (Nat.not_le.mp hk)).trans hself

end HasSize

end ShopTables.Binary64
