import ShopTables.Proofs.Json.Leaves
import ShopTables.Proofs.Yaml.Values

/-!
# Counts are read back

A count is written as its digits, which are a plain scalar (`isValue_toDigits`) that stands for the
count again (`unsigned?_toDigits`).
-/

namespace ShopTables.Yaml

/-! ### Digits -/

theorem isGap_of_isDigit {c : Char} (h : c.isDigit = true) : isGap c = false :=
  isGap_of_kind (by decide) h

theorem toNat_of_isDigit {c : Char} (h : c.isDigit = true) : 48 ≤ c.toNat ∧ c.toNat ≤ 57 := by
  simp only [Char.isDigit, Bool.and_eq_true, decide_eq_true_eq, ge_iff_le,
    UInt32.le_iff_toNat_le] at h
  exact h

theorem isPrintable_of_isDigit {c : Char} (h : c.isDigit = true) : isPrintable c = true := by
  obtain ⟨hlow, hhigh⟩ := toNat_of_isDigit h
  simp only [isPrintable, Bool.or_eq_true, Bool.and_eq_true, decide_eq_true_eq]
  omega

/-! ### Digits as a plain scalar -/

theorem hasPair_of_forall {f g : Char → Bool} {cs : List Char} (h : ∀ c ∈ cs, g c = false) :
    hasPair f g cs = false :=
  hasPair_eq_false_iff.mpr fun c d hcd _ => h d (hcd.mem (by simp))

theorem allowsPlain_of_isDigit {cs : List Char} (h : ∀ c ∈ cs, c.isDigit = true) :
    allowsPlain cs = true := by
  have hbreak : ∀ c ∈ cs, isBreak c = false := fun c hc =>
    isBreak_of_isGap (isGap_of_isDigit (h c hc))
  have hne : ∀ c ∈ cs, ∀ d, d.isDigit = false → (c == d) = false := fun c hc d hd =>
    beq_eq_false_iff_ne.mpr (ne_of_kind (h c hc) hd)
  have hescapes : needsEscapes cs = false := needsEscapes_eq_false_iff.mpr
    ⟨fun c hc => isPrintable_of_isDigit (h c hc), hasPair_of_forall hbreak⟩
  have hline : cs.any isBreak = false := List.any_eq_false.mpr fun c hc => by simp [hbreak c hc]
  have houter : hasOuterGap cs = false := by
    have hword : ∀ c ∈ cs, (c == ' ' || isBreak c) = false := fun c hc => by
      rw [hne c hc ' ' rfl, hbreak c hc, Bool.or_self]
    exact Bool.or_eq_false_iff.mpr
      ⟨(Option.any_eq_false _ _).mpr fun c hc => hword c (List.mem_of_head? hc),
        (Option.any_eq_false _ _).mpr fun c hc => hword c (List.mem_of_getLast? hc)⟩
  have hleading : hasLeadingIndicator cs = false := by
    cases cs with
    | nil => rfl
    | cons c cs =>
      have hc := h c List.mem_cons_self
      have hindicator : leadingIndicators.contains c = false := by
        rw [← Bool.not_eq_true, List.contains_iff_mem]
        exact not_mem_of_kind hc (by decide)
      have hprefix : ∀ d, d.isDigit = false → [d, d, d].isPrefixOf (c :: cs) = false := by
        intro d hd
        have hd : (d == c) = false := beq_eq_false_iff_ne.mpr (ne_of_kind hc hd).symm
        rw [List.isPrefixOf_cons_cons, hd, Bool.false_and]
      rw [hasLeadingIndicator, hindicator, hprefix '-' rfl, hprefix '.' rfl,
        hne c List.mem_cons_self '-' rfl, hne c List.mem_cons_self '?' rfl]
      rfl
  have hinner : hasInnerIndicator cs = false := by
    have hlast : (cs.getLast? == some ':') = false := beq_eq_false_iff_ne.mpr fun hc =>
      ne_of_kind (h ':' (List.mem_of_getLast? hc)) rfl rfl
    rw [hasInnerIndicator, hlast,
      hasPair_of_forall (g := fun d => isBlank d || isBreak d)
        fun c hc => isGap_of_isDigit (h c hc),
      hasPair_of_forall (g := (· == '#')) fun c hc => hne c hc '#' rfl]
    rfl
  rw [allowsPlain, hescapes, hline, houter, hleading, hinner]
  rfl

/-! ### Digits as a number -/

theorem foldlM_digits {f : Nat → Char → Option Nat} {cs : List Char}
    (hf : ∀ n c, c.isDigit = true → f n c = some (10 * n + (c.toNat - '0'.toNat)))
    (h : ∀ c ∈ cs, c.isDigit = true) (n : Nat) :
    cs.foldlM f n = some (Nat.ofDigitChars 10 cs n) := by
  induction cs generalizing n with
  | nil => rfl
  | cons c cs ih =>
    obtain ⟨hc, hcs⟩ := List.forall_mem_cons.mp h
    rw [List.foldlM_cons, hf n c hc, Nat.ofDigitChars_cons]
    exact ih hcs _

/-- Digits are taken for their number. -/
theorem radixNumber?_ten {cs : List Char} (hne : cs ≠ []) (h : ∀ c ∈ cs, c.isDigit = true) :
    radixNumber? 10 cs = some (Nat.ofDigitChars 10 cs 0) := by
  rw [radixNumber?, List.isEmpty_eq_false_iff.mpr hne, if_neg Bool.false_ne_true]
  refine foldlM_digits (fun n c hc => ?_) h 0
  have hd : c.toNat - '0'.toNat < 10 := by
    have hhigh := (toNat_of_isDigit hc).2
    show c.toNat - 48 < 10
    omega
  rw [hexValue?, if_pos hc, Nat.mul_comm 10 n]
  exact if_pos hd

/-- A count is read from its digits. -/
theorem unsigned?_toDigits (n : Nat) : unsigned? (Nat.toDigits 10 n) = some n := by
  have hdigits : ∀ c ∈ Nat.toDigits 10 n, c.isDigit = true := fun c hc =>
    Nat.isDigit_of_mem_toDigits (by decide) (by decide) hc
  have hnumber := radixNumber?_ten Nat.toDigits_ne_nil hdigits
  rw [Nat.ofDigitChars_ten_toDigits] at hnumber
  rcases Nat.eq_zero_or_pos n with rfl | hn
  · rfl
  · obtain ⟨d, ds, hcs, hzero⟩ := Json.toDigits_head hn
    rw [hcs] at hdigits hnumber ⊢
    have hd : d.isDigit = true := hdigits d List.mem_cons_self
    have hminus : d ≠ '-' := ne_of_kind hd rfl
    have hplus : d ≠ '+' := ne_of_kind hd rfl
    have hsign : splitSign (d :: ds) = (false, d :: ds) := by
      simp [splitSign, hminus, hplus]
    have hleading : hasLeadingZero (d :: ds) = false := by
      simp [hasLeadingZero, hsign, hzero]
    have hsize : size? (d :: ds) = radixNumber? 10 (d :: ds) := by
      simp [size?, hzero]
    rw [unsigned?, hleading, if_neg Bool.false_ne_true, ← hnumber, ← hsize]
    simp [hplus]

theorem isValue_toDigits (k n : Nat) :
    IsValue k (' ' :: (Nat.toDigits 10 n ++ ['\n'])) [.scalar .plain (Nat.toDigits 10 n)] :=
  isValue_plain (allowsPlain_of_isDigit fun _ hc =>
    Nat.isDigit_of_mem_toDigits (by decide) (by decide) hc) Nat.toDigits_ne_nil

end ShopTables.Yaml
