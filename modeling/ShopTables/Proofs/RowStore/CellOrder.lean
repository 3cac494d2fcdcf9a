import Mathlib.Algebra.Order.Ring.Rat
import Mathlib.Tactic.Positivity
import ShopTables.Proofs.Binary64.Integers
import ShopTables.RowStore.Cell

/-!
# The order of stored cells

Every cell has a place in the order of cells (`Cell.standing`): numbers stand by their values,
whether they are integers or not, and text and bytes by their bytes. Two cells compare as equal
exactly if they stand at one place (`compareTo_eq_iff`), so comparing as equal is an equivalence.
-/

namespace ShopTables

/-- The places of cells in their order. Numbers stand by their values, texts by their bytes. -/
inductive Standing where
  | null
  | number (x : ℚ)
  | infinite (negative : Bool)
  | text (bytes : List UInt8)
  | blob (bytes : List UInt8)
  deriving DecidableEq

/-- The kinds of cells that stand at a place. -/
def Standing.kindRank : Standing → Nat
  | .null => 0
  | .number _ => 1
  | .infinite _ => 1
  | .text _ => 2
  | .blob _ => 3

namespace Binary64

/-- The value of a finite number. -/
def value (x : Binary64) : ℚ := x.signedNumerator / x.denominator

/-- The place of a number among cells. -/
def standing (x : Binary64) : Standing :=
  if x.isFinite then .number x.value else .infinite x.negative

theorem compareRatio_eq_iff {num num' : Int} {den den' : Nat} (hden : 0 < den)
    (hden' : 0 < den') :
    compareRatio num den num' den' = .eq ↔ (num : ℚ) / den = num' / den' := by
  have hden : (den : ℚ) ≠ 0 := Nat.cast_ne_zero.mpr (Nat.ne_of_gt hden)
  have hden' : (den' : ℚ) ≠ 0 := Nat.cast_ne_zero.mpr (Nat.ne_of_gt hden')
  rw [compareRatio, Int.compare_eq_eq, div_eq_div_iff hden hden']
  exact_mod_cast Iff.rfl

theorem compareTo_eq_iff (x y : Binary64) : x.compareTo y = .eq ↔ x.standing = y.standing := by
  unfold compareTo standing rank
  cases hx : x.isFinite with
  | true =>
    cases hy : y.isFinite with
    | true =>
      simp only [Bool.and_self, if_true, Standing.number.injEq]
      exact compareRatio_eq_iff x.denominator_pos y.denominator_pos
    | false => cases y.negative <;> simp
  | false =>
    cases hy : y.isFinite with
    | true => cases x.negative <;> simp
    | false => cases x.negative <;> cases y.negative <;> simp

/-! ### Numbers at one place -/

theorem le_scale (x : Binary64) : -1074 ≤ x.scale := by
  rw [scale]
  split_ifs
  · exact le_refl _
  · omega

theorem size_eq (x y : Binary64) : x.numerator * y.denominator
    = x.significand * Nat.pow 2 (x.scale.toNat + (-y.scale).toNat) := by
  rw [numerator, denominator, Nat.mul_assoc]
  exact congrArg (x.significand * ·) (Nat.pow_add 2 _ _).symm

/-- A finite number that is not zero is known by its sign and its size. -/
theorem eq_of_size {x y : Binary64} (hx : x.isFinite = true) (hy : y.isFinite = true)
    (hnegative : x.negative = y.negative) (hzero : x.numerator ≠ 0)
    (h : x.numerator * y.denominator = y.numerator * x.denominator) : x = y := by
  have hzero' : y.numerator ≠ 0 := by
    intro hnone
    rw [hnone, Nat.zero_mul] at h
    exact Nat.mul_ne_zero hzero (Nat.ne_of_gt y.denominator_pos) h
  have hsignificand : x.significand ≠ 0 := left_ne_zero_of_mul hzero
  have hsignificand' : y.significand ≠ 0 := left_ne_zero_of_mul hzero'
  rw [size_eq, size_eq] at h
  -- both leading bits stand in one place, so the scales are the same
  have hbits := congrArg Nat.log2 h
  rw [log2_mul_two_pow hsignificand, log2_mul_two_pow hsignificand'] at hbits
  have hleast := le_scale x
  have hleast' := le_scale y
  have hscale : x.scale = y.scale := by
    rcases log2_significand x hsignificand with ⟨hx, hlog⟩ | hlog
    · rcases log2_significand y hsignificand' with ⟨hy, hlog'⟩ | hlog'
      · omega
      · omega
    · rcases log2_significand y hsignificand' with ⟨hy, hlog'⟩ | hlog'
      · omega
      · omega
  rw [hscale] at h
  have hsame : x.significand = y.significand :=
    Nat.eq_of_mul_eq_mul_right (Nat.two_pow_pos _) h
  rw [← ofScaled_significand hx, ← ofScaled_significand hy, hnegative, hsame, hscale]

theorem value_eq_iff (x y : Binary64) : x.value = y.value
    ↔ x.signedNumerator * y.denominator = y.signedNumerator * x.denominator := by
  have hden : (x.denominator : ℚ) ≠ 0 := Nat.cast_ne_zero.mpr (Nat.ne_of_gt x.denominator_pos)
  have hden' : (y.denominator : ℚ) ≠ 0 := Nat.cast_ne_zero.mpr (Nat.ne_of_gt y.denominator_pos)
  rw [value, value, div_eq_div_iff hden hden']
  exact_mod_cast Iff.rfl

theorem signedNumerator_eq (x : Binary64) : x.signedNumerator = signed x.negative x.numerator :=
  rfl

/-- Finite numbers of one value are one number, but for the two zeros. -/
theorem eq_of_value {x y : Binary64} (hx : x.isFinite = true) (hy : y.isFinite = true)
    (hzero : x ≠ zero true) (hzero' : y ≠ zero true) (h : x.value = y.value) : x = y := by
  rw [value_eq_iff, signedNumerator_eq, signedNumerator_eq, signed, signed] at h
  have hden := x.denominator_pos
  have hden' := y.denominator_pos
  by_cases hnone : x.numerator = 0
  · have hnone' : y.numerator = 0 := by
      have hprod : (y.numerator : Int) * x.denominator = 0 := by
        rw [hnone] at h
        split_ifs at h <;> simp only [Int.natCast_zero, neg_zero, zero_mul, neg_mul] at h <;> omega
      have hfactor := mul_eq_zero.mp hprod
      omega
    have hplus {z : Binary64} (hz : z ≠ zero true) (hnone : z.numerator = 0) : z = zero false := by
      have hsign := eq_zero_of_numerator hnone
      cases hnegative : z.negative with
      | true => exact absurd (hnegative ▸ hsign) hz
      | false => rwa [hnegative] at hsign
    rw [hplus hzero hnone, hplus hzero' hnone']
  · -- what is not zero has the sign of its value
    have hpos : 0 < (x.numerator : Int) * y.denominator := by positivity
    have hpos' : 0 ≤ (y.numerator : Int) * x.denominator := by positivity
    have hnegative : x.negative = y.negative := by
      cases hneg : x.negative <;> cases hneg' : y.negative <;>
        simp only [hneg, hneg', if_true, if_false, Bool.false_eq_true, neg_mul] at h <;>
        first | rfl | omega
    refine eq_of_size hx hy hnegative hnone ?_
    rw [hnegative] at h
    split_ifs at h
    · rw [neg_mul, neg_mul, neg_inj] at h
      exact_mod_cast h
    · exact_mod_cast h

theorem eq_infinite {x : Binary64} (hx : x.isFinite = false) (hnan : x.isNaN = false) :
    x = infinite x.negative := by
  obtain ⟨negative, exponent, fraction⟩ := x
  have hexponent : exponent.val = 2047 := by
    rw [isFinite, bne_eq_false_iff_eq] at hx
    exact hx
  have hfraction : fraction.val = 0 := by
    rw [isNaN, Bool.and_eq_false_iff] at hnan
    simpa [hexponent] using hnan
  rw [infinite, mk.injEq]
  exact ⟨rfl, Fin.ext hexponent, Fin.ext hfraction⟩

/-- Numbers that stand at one place are one number, but for the two zeros. -/
theorem eq_of_standing {x y : Binary64} (hx : x.isNaN = false) (hy : y.isNaN = false)
    (hzero : x ≠ zero true) (hzero' : y ≠ zero true) (h : x.standing = y.standing) : x = y := by
  unfold standing at h
  cases hfinite : x.isFinite with
  | true =>
    cases hfinite' : y.isFinite with
    | true =>
      rw [hfinite, hfinite', if_pos rfl, if_pos rfl, Standing.number.injEq] at h
      exact eq_of_value hfinite hfinite' hzero hzero' h
    | false =>
      rw [hfinite, hfinite'] at h
      cases h
  | false =>
    cases hfinite' : y.isFinite with
    | true =>
      rw [hfinite, hfinite'] at h
      cases h
    | false =>
      rw [hfinite, hfinite'] at h
      rw [eq_infinite hfinite hx, eq_infinite hfinite' hy, Standing.infinite.inj h]

end Binary64

namespace Cell

/-- The place of a cell in the order of cells. -/
def standing : Cell → Standing
  | .null => .null
  | .integer i => .number i
  | .real x => x.standing
  | .text s => .text (Text.Utf8.ofString s)
  | .blob bytes => .blob bytes

theorem kindRank_eq (a : Cell) : a.kindRank = a.standing.kindRank := by
  cases a with
  | real x =>
    show 1 = x.standing.kindRank
    unfold Binary64.standing
    split_ifs
    · rfl
    · rfl
  | _ => rfl

theorem compareBytes_eq_iff (a b : List UInt8) : compareBytes a b = .eq ↔ a = b := by
  induction a generalizing b with
  | nil => cases b <;> simp [compareBytes]
  | cons x a ih =>
    cases b with
    | nil => simp [compareBytes]
    | cons y b =>
      rw [compareBytes, Ordering.then_eq_eq, Nat.compare_eq_eq, ih, List.cons.injEq,
        UInt8.toNat_inj]

theorem compareIntReal_eq_iff (i : Int) (x : Binary64) :
    compareIntReal i x = .eq ↔ Standing.number i = x.standing := by
  unfold compareIntReal Binary64.standing Binary64.rank
  cases hx : x.isFinite with
  | true =>
    rw [if_pos rfl, if_pos rfl, Standing.number.injEq,
      Binary64.compareRatio_eq_iff Nat.one_pos x.denominator_pos, Nat.cast_one, div_one]
    rfl
  | false => cases x.negative <;> simp

theorem compareTo_eq_iff_of_kindRank_ne {a b : Cell} (h : a.kindRank ≠ b.kindRank) :
    a.compareTo b = .eq ↔ a.standing = b.standing := by
  have hcompare : compare a.kindRank b.kindRank ≠ .eq := mt Nat.compare_eq_eq.mp h
  have hstanding : a.standing ≠ b.standing := by
    intro hsame
    rw [kindRank_eq, kindRank_eq, hsame] at h
    exact h rfl
  refine iff_of_false ?_ hstanding
  cases a <;> cases b <;> first | exact hcompare | exact absurd rfl h

/-- Two cells compare as equal exactly if they stand at the same place. -/
theorem compareTo_eq_iff (a b : Cell) : a.compareTo b = .eq ↔ a.standing = b.standing := by
  -- cells of different kinds are compared by their kinds alone
  by_cases hkind : a.kindRank = b.kindRank
  · cases a with
    | null =>
      cases b with
      | null => exact iff_of_true rfl rfl
      | _ => cases hkind
    | integer i =>
      cases b with
      | integer j =>
        rw [compareTo, Int.compare_eq_eq, standing, standing, Standing.number.injEq,
          Rat.intCast_inj]
      | real y => exact compareIntReal_eq_iff i y
      | _ => cases hkind
    | real x =>
      cases b with
      | integer j =>
        rw [compareTo, Ordering.swap_eq_eq, compareIntReal_eq_iff]
        exact eq_comm
      | real y => exact Binary64.compareTo_eq_iff x y
      | _ => cases hkind
    | text s =>
      cases b with
      | text t => rw [compareTo, compareBytes_eq_iff, standing, standing, Standing.text.injEq]
      | _ => cases hkind
    | blob bytes =>
      cases b with
      | blob bytes' => rw [compareTo, compareBytes_eq_iff, standing, standing, Standing.blob.injEq]
      | _ => cases hkind
  · exact compareTo_eq_iff_of_kindRank_ne hkind

end Cell

end ShopTables
