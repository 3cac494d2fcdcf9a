import Mathlib.Tactic.SplitIfs
import ShopTables.Binary64.Basic

/-!
# Integers among the numbers

A finite number is put together again from its significand and its scale (`ofScaled_significand`),
and if it is an integer, its leading bit is that of the integer (`log2_of_integral`). So rounding
the integer that a number is gives that number (`ofRatio_one`).
-/

namespace ShopTables.Binary64

/-! ### Rounding what needs no rounding -/

theorem roundHalfEven_mul (m : Nat) {den : Nat} (h : 0 < den) :
    roundHalfEven (m * den) den = m := by
  rw [roundHalfEven, Nat.mul_div_cancel m h, Nat.mul_mod_left]
  exact if_neg (by omega)

theorem isFinite_iff {x : Binary64} : x.isFinite = true ↔ x.exponent.val ≠ 2047 := by
  rw [isFinite, bne_iff_ne]

theorem isNaN_of_isFinite {x : Binary64} (h : x.isFinite = true) : x.isNaN = false := by
  rw [isNaN, beq_eq_false_iff_ne.mpr (isFinite_iff.mp h), Bool.false_and]

theorem denominator_pos (x : Binary64) : 0 < x.denominator := Nat.two_pow_pos _

/-- A number is made of its significand and its scale. -/
theorem ofScaled_significand {x : Binary64} (h : x.isFinite = true) :
    ofScaled x.negative x.significand x.scale = x := by
  obtain ⟨negative, exponent, fraction⟩ := x
  have hexponent : exponent.val ≠ 2047 := isFinite_iff.mp h
  have hfraction := fraction.isLt
  rw [ofScaled, significand, scale]
  by_cases hzero : exponent.val = 0
  · simp only [if_pos hzero, if_pos hfraction, Fin.ofNat_val_eq_self]
    rw [mk.injEq]
    exact ⟨rfl, Fin.ext hzero.symm, rfl⟩
  · have hsmall : ¬ 4503599627370496 + fraction.val < 4503599627370496 := by omega
    have hcarry : 4503599627370496 + fraction.val ≠ 9007199254740992 := by omega
    have hlarge : ¬ (971 : Int) < (exponent.val : Int) - 1075 := by omega
    simp only [if_neg hzero, if_neg hsmall, if_neg hcarry, if_neg hlarge]
    rw [mk.injEq]
    refine ⟨rfl, ?_, ?_⟩
    · rw [Int.sub_add_cancel, Int.toNat_natCast, Fin.ofNat_val_eq_self]
    · rw [Nat.add_sub_cancel_left, Fin.ofNat_val_eq_self]

/-- A significand that is rounded up to 2 ^ 53 is carried into the next scale. -/
theorem ofScaled_carried (negative : Bool) (q : Int) :
    ofScaled negative 9007199254740992 q = ofScaled negative 4503599627370496 (q + 1) := by
  simp [ofScaled]

/-! ### Leading bits -/

theorem log2_mul_two_pow {n : Nat} (hn : n ≠ 0) (k : Nat) :
    Nat.log2 (n * Nat.pow 2 k) = Nat.log2 n + k := by
  induction k with
  | zero => exact congrArg Nat.log2 (Nat.mul_one n)
  | succ k ih =>
    have hpos : n * Nat.pow 2 k ≠ 0 := Nat.mul_ne_zero hn (Nat.ne_of_gt (Nat.two_pow_pos k))
    have hdouble : n * Nat.pow 2 (k + 1) = 2 * (n * Nat.pow 2 k) := by
      rw [Nat.mul_comm 2, Nat.mul_assoc]
      rfl
    rw [hdouble, Nat.log2_two_mul hpos, ih]
    omega

/-- The leading bit of a significand, unless the number is too small for its scale. -/
theorem log2_significand (x : Binary64) (hx : x.significand ≠ 0) :
    (x.scale = -1074 ∧ Nat.log2 x.significand < 52) ∨ Nat.log2 x.significand = 52 := by
  have hfraction := x.fraction.isLt
  rw [Nat.log2_lt hx, Nat.log2_eq_iff hx, significand, scale]
  split_ifs
  · exact .inl ⟨rfl, hfraction⟩
  · right
    omega

/-- A number that is a positive integer has its leading bit where the integer has it. -/
theorem log2_of_integral {x : Binary64} {n : Nat} (hn : n ≠ 0)
    (h : x.numerator = n * x.denominator) : (Nat.log2 n : Int) = 52 + x.scale := by
  rw [numerator, denominator] at h
  have hsignificand : x.significand ≠ 0 := by
    intro hzero
    rw [hzero, Nat.zero_mul] at h
    exact Nat.mul_ne_zero hn (Nat.ne_of_gt (Nat.two_pow_pos _)) h.symm
  have hbits := congrArg Nat.log2 h
  rw [log2_mul_two_pow hsignificand, log2_mul_two_pow hn] at hbits
  rcases log2_significand x hsignificand with ⟨hscale, hlog⟩ | hlog
  · -- a number of the least scale has no place for an integer
    rw [hscale] at hbits
    omega
  · omega

/-! ### Integers that are numbers -/

/-- An integer is rounded in the last place that its leading bit asks for. -/
theorem ofRatio_integer {negative : Bool} {k : Nat} (hk : k ≠ 0) {q : Int}
    (hq : (Nat.log2 k : Int) = 52 + q) :
    ofRatio negative k 1 = ofScaled negative
      (roundHalfEven (k * Nat.pow 2 (-q).toNat) (Nat.pow 2 q.toNat)) q := by
  have hbelow : ¬ k * Nat.pow 2 (-((Nat.log2 k : Int) - Nat.log2 1)).toNat
      < 1 * Nat.pow 2 ((Nat.log2 k : Int) - Nat.log2 1).toNat := by
    have hone : Nat.log2 1 = 0 := rfl
    have hle := Nat.log2_self_le hk
    rw [hone, Int.natCast_zero, Int.sub_zero, Int.toNat_natCast, Int.toNat_neg_natCast,
      Nat.pow_eq, Nat.pow_eq, Nat.pow_zero, Nat.mul_one, Nat.one_mul]
    omega
  have hscale : max ((Nat.log2 k : Int) - Nat.log2 1 - 52) (-1074) = q := by
    have hone : Nat.log2 1 = 0 := rfl
    omega
  rw [ofRatio, if_neg hk]
  simp only [if_neg hbelow, hscale]
  rw [Nat.one_mul]

/-- The integer that a number is has that number as the nearest one. -/
theorem ofRatio_one {x : Binary64} {n : Nat} (hx : x.isFinite = true) (hn : n ≠ 0)
    (h : x.numerator = n * x.denominator) : ofRatio x.negative n 1 = x := by
  have hratio : n * Nat.pow 2 (-x.scale).toNat = x.significand * Nat.pow 2 x.scale.toNat := h.symm
  rw [ofRatio_integer hn (log2_of_integral hn h), hratio,
    roundHalfEven_mul _ (show 0 < Nat.pow 2 x.scale.toNat from Nat.two_pow_pos _),
    ofScaled_significand hx]

/-- The integer of a sign and a size. -/
def signed (negative : Bool) (n : Nat) : Int := if negative then -(n : Int) else n

theorem ofInt_signed (negative : Bool) {n : Nat} (hn : 0 < n) :
    ofInt (signed negative n) = ofRatio negative n 1 := by
  cases negative with
  | true =>
    have hsign : decide (-(n : Int) < 0) = true := decide_eq_true (by omega)
    rw [signed, if_pos rfl, ofInt, hsign, Int.natAbs_neg, Int.natAbs_natCast]
  | false =>
    have hsign : decide ((n : Int) < 0) = false := decide_eq_false (by omega)
    rw [signed, if_neg Bool.false_ne_true, ofInt, hsign, Int.natAbs_natCast]

theorem eq_zero_of_numerator {x : Binary64} (h : x.numerator = 0) : x = zero x.negative := by
  rw [numerator, Nat.mul_eq_zero] at h
  have hsignificand : x.significand = 0 :=
    h.resolve_right (Nat.ne_of_gt (Nat.two_pow_pos x.scale.toNat))
  obtain ⟨negative, exponent, fraction⟩ := x
  rw [significand] at hsignificand
  split_ifs at hsignificand with hzero
  · rw [zero, mk.injEq]
    exact ⟨rfl, Fin.ext hzero, Fin.ext hsignificand⟩
  · omega

end ShopTables.Binary64
