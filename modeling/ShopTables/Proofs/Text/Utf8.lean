import Mathlib.Data.List.Basic
import Mathlib.Data.Option.Basic
import Mathlib.Tactic.SplitIfs
import ShopTables.Text.Utf8

/-!
# Reading UTF-8 that was written

What `Utf8.encode` writes is read back without a fault, character by character
(`decode_encode`). A character takes one to four bytes; for each length, the lead byte is told
apart by its range (`leadLength_…`), the second byte passes the test that shuts out overlong forms
and surrogates (`isSecond_of`), and every further byte adds its six bits (`readTail_cons`).
-/

namespace ShopTables.Text.Utf8

theorem toNat_ofNat_of_lt {n : Nat} (h : n < 256) : (UInt8.ofNat n).toNat = n := by
  rw [UInt8.toNat_ofNat']
  exact Nat.mod_eq_of_lt h

/-! ### Lead bytes -/

theorem leadLength_one {b : Nat} (h : b < 0x80) : leadLength b = 1 := if_pos h

theorem leadLength_two {b : Nat} (h : 0xC2 ≤ b) (h' : b ≤ 0xDF) : leadLength b = 2 := by
  unfold leadLength
  rw [if_neg (by omega), if_pos (by omega)]

theorem leadLength_three {b : Nat} (h : 0xE0 ≤ b) (h' : b ≤ 0xEF) : leadLength b = 3 := by
  unfold leadLength
  rw [if_neg (by omega), if_neg (by omega), if_pos (by omega)]

theorem leadLength_four {b : Nat} (h : 0xF0 ≤ b) (h' : b ≤ 0xF4) : leadLength b = 4 := by
  unfold leadLength
  rw [if_neg (by omega), if_neg (by omega), if_neg (by omega), if_pos (by omega)]

/-! ### Continuation bytes -/

theorem isSecond_of {b c : Nat} (h : 0x80 ≤ c ∧ c ≤ 0xBF) (h₁ : b = 0xE0 → 0xA0 ≤ c)
    (h₂ : b = 0xED → c ≤ 0x9F) (h₃ : b = 0xF0 → 0x90 ≤ c) (h₄ : b = 0xF4 → c ≤ 0x8F) :
    isSecond b c = true := by
  unfold isSecond
  split_ifs <;> simp only [Bool.and_eq_true, decide_eq_true_eq] <;> omega

/-- A continuation byte adds the six low bits of `v`. -/
theorem readTail_cons (n code v : Nat) (rest : List UInt8) :
    readTail (n + 1) code (UInt8.ofNat (v % 0x40 + 0x80) :: rest)
      = readTail n (code * 64 + v % 64) rest := by
  have hb : (UInt8.ofNat (v % 0x40 + 0x80)).toNat = v % 64 + 128 :=
    toNat_ofNat_of_lt (by omega)
  have htail : isTail (v % 64 + 128) = true := by
    simp only [isTail, Bool.and_eq_true, decide_eq_true_eq]
    omega
  rw [readTail, hb, if_pos htail, low]
  congr 2
  omega

/-- The first two bytes of a character of at least two. -/
theorem step_lead {b v n : Nat} {rest : List UInt8} (hb : b < 256) (hl : leadLength b = n + 2)
    (hs : isSecond b (v % 64 + 128) = true) :
    step (UInt8.ofNat b) (UInt8.ofNat (v % 0x40 + 0x80) :: rest)
      = readTail n (b % Nat.pow 2 (5 - n) * 64 + v % 64) rest := by
  have hv : (UInt8.ofNat (v % 0x40 + 0x80)).toNat = v % 64 + 128 :=
    toNat_ofNat_of_lt (by omega)
  unfold step
  rw [toNat_ofNat_of_lt hb, hl]
  simp only [hv, hs, if_true, low]
  congr 2
  omega

/-! ### Characters and texts -/

theorem ofNat_of_eq {c : Char} {n : Nat} (h : n = c.val.toNat) : Char.ofNat n = c := by
  rw [h]
  exact Char.ofNat_toNat c

/-- The bytes of a character are read as this character, whatever follows. -/
theorem decode_utf8EncodeChar (c : Char) (rest : List UInt8) :
    decode (String.utf8EncodeChar c ++ rest) = some c :: decode rest := by
  have hvalid := c.valid
  simp only [UInt32.isValidChar, Nat.isValidChar] at hvalid
  unfold String.utf8EncodeChar
  dsimp only
  split
  · have hb := toNat_ofNat_of_lt (n := c.val.toNat) (by omega)
    rw [List.cons_append, List.nil_append, decode]
    unfold step
    rw [hb, leadLength_one (by omega)]
    simp only [ofNat_of_eq (c := c) rfl]
  split
  · rw [List.cons_append, decode, List.cons_append, step_lead (n := 0) (by omega)
      (leadLength_two (by omega) (by omega))
      (isSecond_of (by omega) (by omega) (by omega) (by omega) (by omega)), List.nil_append]
    simp only [readTail, Nat.pow_eq]
    rw [ofNat_of_eq (c := c) (by omega)]
  split
  -- Surrogates are no characters, so the second byte after 0xED stays below 0xA0.
  · rw [List.cons_append, decode, List.cons_append, step_lead (n := 1) (by omega)
      (leadLength_three (by omega) (by omega))
      (isSecond_of (by omega) (by omega) (by omega) (by omega) (by omega)),
      List.cons_append, readTail_cons, List.nil_append]
    simp only [readTail, Nat.pow_eq]
    rw [ofNat_of_eq (c := c) (by omega)]
  · rw [List.cons_append, decode, List.cons_append, step_lead (n := 2) (by omega)
      (leadLength_four (by omega) (by omega))
      (isSecond_of (by omega) (by omega) (by omega) (by omega) (by omega)),
      List.cons_append, readTail_cons, List.cons_append, readTail_cons, List.nil_append]
    simp only [readTail, Nat.pow_eq]
    rw [ofNat_of_eq (c := c) (by omega)]

/-- What was written is read back. -/
theorem decode_encode (cs : List Char) : decode (encode cs) = cs.map some := by
  induction cs with
  | nil => rw [encode, List.flatMap_nil, decode, List.map_nil]
  | cons c cs ih =>
    have hcons : encode (c :: cs) = String.utf8EncodeChar c ++ encode cs := List.flatMap_cons
    rw [hcons, decode_utf8EncodeChar, ih, List.map_cons]

/-- What was written is a text. -/
theorem strict?_encode (cs : List Char) : strict? (encode cs) = some cs := by
  rw [strict?, decode_encode]
  induction cs with
  | nil => rfl
  | cons c cs ih =>
    rw [List.map_cons, List.mapM_cons, ih]
    rfl

theorem ofString_injective {s t : String} (h : ofString s = ofString t) : s = t := by
  have hchars := congrArg decode h
  rw [ofString, ofString, decode_encode, decode_encode] at hchars
  exact String.toList_inj.mp (List.map_injective_iff.mpr (Option.some_injective _) hchars)

end ShopTables.Text.Utf8
