import Mathlib.Data.String.Basic
import ShopTables.Proofs.Text.Utf8

/-!
# The order of texts is the order of their bytes

Texts are compared character by character, and so are their UTF-8 bytes byte by byte, with the same
outcome (`ofString_lt_iff`). A character that takes more bytes has a greater lead byte; of two that
take equally many, the first group of six bits in which they differ decides (`lt_groups`).
-/

namespace ShopTables.Text.Utf8

/-! ### Characters -/

/-- Numbers are compared by their high bits first, then by the six low ones. -/
theorem lt_cases_of_lt {m n : Nat} (h : m < n) :
    m / 64 < n / 64 ∨ m / 64 = n / 64 ∧ m % 64 < n % 64 := by
  omega

/-- Numbers of 21 bits are compared by their groups of bits, the highest first. -/
theorem lt_groups {m n : Nat} (h : m < n) (hn : n < 2097152) :
    m / 262144 % 8 < n / 262144 % 8 ∨ m / 262144 % 8 = n / 262144 % 8 ∧
      (m / 4096 % 64 < n / 4096 % 64 ∨ m / 4096 % 64 = n / 4096 % 64 ∧
        (m / 64 % 64 < n / 64 % 64 ∨ m / 64 % 64 = n / 64 % 64 ∧ m % 64 < n % 64)) := by
  have hsecond (k : Nat) : k / 4096 = k / 64 / 64 := by rw [Nat.div_div_eq_div_mul]
  have hfirst (k : Nat) : k / 262144 = k / 64 / 64 / 64 := by
    rw [Nat.div_div_eq_div_mul, Nat.div_div_eq_div_mul]
  rw [hsecond, hsecond, hfirst, hfirst]
  rcases lt_cases_of_lt h with h | ⟨heq, h⟩
  · rcases lt_cases_of_lt h with h | ⟨heq, h⟩
    · rcases lt_cases_of_lt h with h | ⟨heq, h⟩
      · omega
      · omega
    · omega
  · omega

theorem cons_ofNat_lt_cons {m n : Nat} (hm : m < 256) (hn : n < 256) {xs ys : List UInt8} :
    UInt8.ofNat m :: xs < UInt8.ofNat n :: ys ↔ m < n ∨ m = n ∧ xs < ys := by
  rw [List.cons_lt_cons_iff, UInt8.lt_iff_toNat_lt, ← UInt8.toNat_inj, toNat_ofNat_of_lt hm,
    toNat_ofNat_of_lt hn]

/-- The bytes of a lesser character are less, whatever follows either. -/
theorem utf8EncodeChar_append_lt {c d : Char} (h : c < d) (xs ys : List UInt8) :
    String.utf8EncodeChar c ++ xs < String.utf8EncodeChar d ++ ys := by
  have hlt : c.val.toNat < d.val.toNat := h
  have hvalid := d.valid
  simp only [UInt32.isValidChar, Nat.isValidChar] at hvalid
  have hgroups := lt_groups hlt (by omega)
  unfold String.utf8EncodeChar
  dsimp only
  split_ifs <;>
    simp (disch := omega) only [List.cons_append, List.nil_append, cons_ofNat_lt_cons] <;> omega

/-! ### Texts -/

theorem encode_cons (c : Char) (cs : List Char) :
    encode (c :: cs) = String.utf8EncodeChar c ++ encode cs := List.flatMap_cons

theorem encode_lt {cs ds : List Char} (h : cs < ds) : encode cs < encode ds := by
  induction cs generalizing ds with
  | nil =>
    cases ds with
    | nil => exact absurd h (lt_irrefl _)
    | cons d ds =>
      obtain ⟨b, bytes, hbytes⟩ :=
        List.exists_cons_of_ne_nil (String.utf8EncodeChar_ne_nil (c := d))
      rw [encode_cons, hbytes]
      exact List.nil_lt_cons _ _
  | cons c cs ih =>
    cases ds with
    | nil => exact absurd h (List.not_lt_nil _)
    | cons d ds =>
      rw [encode_cons, encode_cons]
      rcases List.cons_lt_cons_iff.mp h with hlt | ⟨rfl, hrest⟩
      · exact utf8EncodeChar_append_lt hlt _ _
      · exact List.append_left_lt (ih hrest)

/-- A text is before another exactly if its bytes are. -/
theorem ofString_lt_iff {s t : String} : ofString s < ofString t ↔ s < t := by
  refine ⟨fun h => ?_, fun h => encode_lt (String.lt_iff_toList_lt.mp h)⟩
  rcases lt_trichotomy s t with hlt | rfl | hgt
  · exact hlt
  · exact absurd h (List.lt_irrefl _)
  · exact absurd (encode_lt (String.lt_iff_toList_lt.mp hgt)) (List.lt_asymm h)

end ShopTables.Text.Utf8
