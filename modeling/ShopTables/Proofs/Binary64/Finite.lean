import Mathlib.Algebra.Order.Ring.Nat
import Mathlib.Tactic.Ring
import ShopTables.Proofs.Binary64.Integers

/-!
# Which numbers are finite

A ratio below 2 ^ 1023 goes to a finite number (`isFinite_ofRatio`): its last place is one that the
format has. So every integer of 64 bits does, and so does a finite number that is divided by two or
more (`isFinite_div`), as by a power of ten (`power_of_ten`).
-/

namespace ShopTables.Binary64

/-! ### Rounding within the format -/

theorem isFinite_ofScaled (negative : Bool) (m : Nat) {q : Int} (hq : q ≤ 970) :
    (ofScaled negative m q).isFinite = true := by
  have hmade (m' : Nat) {q' : Int} (hq' : q' ≤ 971) :
      (if 971 < q' then infinite negative
        else ⟨negative, Fin.ofNat _ (q' + 1075).toNat, Fin.ofNat _ m'⟩ : Binary64).isFinite
        = true := by
    rw [if_neg (by omega), isFinite_iff, Fin.val_ofNat]
    omega
  unfold ofScaled
  split_ifs
  · rfl
  · exact hmade _ (show q + 1 ≤ 971 by omega)
  · exact hmade _ (by omega)

theorem isFinite_ofRatio (negative : Bool) {num den k : Nat} (hk : k ≤ 1023)
    (h : num < 2 ^ k * den) : (ofRatio negative num den).isFinite = true := by
  unfold ofRatio
  by_cases hnum : num = 0
  · rw [if_pos hnum]
    rfl
  · rw [if_neg hnum]
    dsimp only
    apply isFinite_ofScaled
    -- the leading bits are `k` places apart at most, and if they are, the ratio is below `2 ^ k`
    have hlog : Nat.log2 num < k + (Nat.log2 den + 1) := by
      rw [Nat.log2_lt hnum, Nat.pow_add]
      exact h.trans (Nat.mul_lt_mul_of_pos_left Nat.lt_log2_self (Nat.two_pow_pos _))
    by_cases htop : Nat.log2 num = k + Nat.log2 den
    · have hd : (Nat.log2 num : Int) - Nat.log2 den = k := by omega
      rw [hd, Int.toNat_natCast, Int.toNat_neg_natCast, if_pos]
      · omega
      · rw [Nat.pow_eq, Nat.pow_eq, Nat.pow_zero, Nat.mul_one, Nat.mul_comm den]
        exact h
    · split_ifs <;> omega

theorem isFinite_ofInt {i : Int} (hrange : i.natAbs < 18446744073709551616) :
    (ofInt i).isFinite = true :=
  isFinite_ofRatio (k := 64) _ (by decide) (by omega)

/-! ### Division -/

theorem numerator_lt (x : Binary64) : x.numerator < 2 ^ (53 + x.scale.toNat) := by
  have hfraction := x.fraction.isLt
  have hsignificand : x.significand < 2 ^ 53 := by
    rw [significand]
    split_ifs <;> omega
  rw [Nat.pow_add]
  exact Nat.mul_lt_mul_of_pos_right hsignificand (Nat.two_pow_pos _)

theorem scale_le {x : Binary64} (h : x.isFinite = true) : x.scale.toNat ≤ 971 := by
  have hexponent := isFinite_iff.mp h
  have hlast := x.exponent.isLt
  rw [scale]
  split_ifs <;> omega

theorem isZero_eq_false {x : Binary64} (h : x.numerator ≠ 0) : x.isZero = false := by
  rw [isZero, Bool.and_eq_false_iff, beq_eq_false_iff_ne, beq_eq_false_iff_ne, ← not_and_or]
  rintro ⟨hexponent, hfraction⟩
  rw [numerator, significand, if_pos hexponent, hfraction, Nat.zero_mul] at h
  exact h rfl

/-- A finite number over another of two at least is finite. -/
theorem isFinite_div {x y : Binary64} (hx : x.isFinite = true) (hy : y.isFinite = true)
    (htwo : 2 * y.denominator ≤ y.numerator) : (x.div y).isFinite = true := by
  have hden' := y.denominator_pos
  have hzero : y.isZero = false := isZero_eq_false (by omega)
  have hk : 52 + x.scale.toNat ≤ 1023 := by
    have := scale_le hx
    omega
  have hratio : x.numerator * y.denominator
      < 2 ^ (52 + x.scale.toNat) * (x.denominator * y.numerator) := by
    calc x.numerator * y.denominator
        < 2 ^ (53 + x.scale.toNat) * y.denominator :=
          Nat.mul_lt_mul_of_pos_right x.numerator_lt hden'
      _ = 2 ^ (52 + x.scale.toNat) * (2 * y.denominator) := by ring
      _ ≤ 2 ^ (52 + x.scale.toNat) * y.numerator := Nat.mul_le_mul_left _ htwo
      _ ≤ 2 ^ (52 + x.scale.toNat) * (x.denominator * y.numerator) :=
          Nat.mul_le_mul_left _ (Nat.le_mul_of_pos_left _ x.denominator_pos)
  rw [div, isNaN_of_isFinite hx, isNaN_of_isFinite hy, hx, hy, hzero]
  exact isFinite_ofRatio _ hk hratio

/-- The powers of ten of the format from ten on. -/
theorem power_of_ten {e : Int} (hpos : 0 < e) (hle : e ≤ 308) :
    (ofDecimal false 1 e).isFinite = true
      ∧ 2 * (ofDecimal false 1 e).denominator ≤ (ofDecimal false 1 e).numerator := by
  have hall : ∀ k : Nat, k < 309 → k ≠ 0 → (ofDecimal false 1 k).isFinite = true
      ∧ 2 * (ofDecimal false 1 k).denominator ≤ (ofDecimal false 1 k).numerator := by
    decide +kernel
  obtain ⟨k, rfl⟩ := Int.eq_ofNat_of_zero_le hpos.le
  exact hall k (by omega) (by omega)

end ShopTables.Binary64
