import Mathlib.Tactic.SplitIfs
import Mathlib.Tactic.Tauto
import ShopTables.Json.Printer
import ShopTables.Json.Reader

/-!
# Written strings and integers are read back

The leaves of a document. Every character of a string is written as one escape or as itself, and
either way it is read as one piece, `pieceOf`; the pieces of a string make the string again
(`stringOf?_pieceOf`). An integer is written as its digits; they end where nothing follows that a
number could go on with (`EndsNumber`), and as long as the integer fits 64 bits they are taken one
by one without loss (`takeDigits_eq`).
-/

namespace ShopTables.Json

/-! ### Characters as pieces -/

/-- The piece by which a written character is read: controls without a short escape are units. -/
def pieceOf (c : Char) : Piece :=
  if c = '\x08' ∨ c = '\x0c' ∨ c = '\n' ∨ c = '\r' ∨ c = '\t' then .char c
  else if c.toNat < 0x20 then .unit c.toNat
  else .char c

theorem hexUnit?_digitChar {a b : Nat} (ha : a < 16) (hb : b < 16) :
    Outline.hexUnit? '0' '0' (Nat.digitChar a) (Nat.digitChar b) = some (a * 16 + b) := by
  have hdigit : ∀ n < 16, Outline.hexDigit? (Nat.digitChar n) = some n := by decide
  have hzero : Outline.hexDigit? '0' = some 0 := by decide
  simp only [Outline.hexUnit?, hzero, hdigit a ha, hdigit b hb]
  simp

theorem readString_short {e c : Char} (he : e ≠ 'u') (h : Outline.shortEscape? e = some c)
    (input : Outline.Input) :
    Outline.readString (some '\\' :: some e :: input)
      = (Outline.readString input).map fun (ps, r) => (.char c :: ps, r) := by
  rw [Outline.readString.eq_5 _ _ fun _ _ _ _ _ _ hu => he hu, h]
  cases Outline.readString input <;> rfl

theorem readString_unit {a b : Nat} (ha : a < 16) (hb : b < 16) (input : Outline.Input) :
    Outline.readString (some '\\' :: some 'u' :: some '0' :: some '0' :: some (Nat.digitChar a)
        :: some (Nat.digitChar b) :: input)
      = (Outline.readString input).map fun (ps, r) => (.unit (a * 16 + b) :: ps, r) := by
  rw [Outline.readString, hexUnit?_digitChar ha hb]
  cases Outline.readString input <;> rfl

theorem readString_plain {c : Char} (hq : c ≠ '"') (hb : c ≠ '\\') (hc : ¬ c.toNat < 0x20)
    (input : Outline.Input) :
    Outline.readString (some c :: input)
      = (Outline.readString input).map fun (ps, r) => (.char c :: ps, r) := by
  rw [Outline.readString.eq_6 _ _ hq (fun _ _ _ _ _ _ h => hb h) (fun _ _ _ h => hb h),
    if_neg (not_or.mpr ⟨hb, hc⟩)]

theorem readString_escape (c : Char) (input : Outline.Input) :
    Outline.readString ((escape c).map some ++ input)
      = (Outline.readString input).map fun (ps, r) => (pieceOf c :: ps, r) := by
  unfold escape
  split_ifs with h₁ h₂ h₃ h₄ h₅ h₆ h₇ h₈
  · subst h₁
    exact readString_short (by decide) rfl input
  · subst h₂
    exact readString_short (by decide) rfl input
  · subst h₃
    exact readString_short (by decide) rfl input
  · subst h₄
    exact readString_short (by decide) rfl input
  · subst h₅
    exact readString_short (by decide) rfl input
  · subst h₆
    exact readString_short (by decide) rfl input
  · subst h₇
    exact readString_short (by decide) rfl input
  · have hpiece : pieceOf c = .unit (c.toNat / 16 * 16 + c.toNat % 16) := by
      rw [Nat.div_add_mod', pieceOf, if_neg (by tauto), if_pos h₈]
    rw [hpiece]
    exact readString_unit (by omega) (by omega) input
  · have hpiece : pieceOf c = .char c := by
      rw [pieceOf, if_neg (by tauto), if_neg h₈]
    rw [hpiece]
    exact readString_plain h₁ h₂ h₈ input

theorem readString_escapes (cs : List Char) (rest : Outline.Input) :
    Outline.readString ((cs.flatMap escape).map some ++ some '"' :: rest)
      = some (cs.map pieceOf, rest) := by
  induction cs with
  | nil => rw [List.flatMap_nil, List.map_nil, List.nil_append, Outline.readString, List.map_nil]
  | cons c cs ih =>
    rw [List.flatMap_cons, List.map_append, List.append_assoc, readString_escape, ih]
    rfl

/-! ### Strings from pieces -/

theorem joinPieces?_unit {u : Nat} (h : u < 0x20) (ps : List Piece) :
    joinPieces? (.unit u :: ps) = (joinPieces? ps).map (Char.ofNat u :: ·) := by
  have hlead : isLeadUnit u = false := by
    simp only [isLeadUnit, Bool.and_eq_false_iff, decide_eq_false_iff_not]
    omega
  have htrail : isTrailUnit u = false := by
    simp only [isTrailUnit, Bool.and_eq_false_iff, decide_eq_false_iff_not]
    omega
  cases ps with
  | nil => simp [joinPieces?, hlead, htrail]
  | cons p ps => cases p <;> simp [joinPieces?, hlead, htrail]

theorem joinPieces?_pieceOf (c : Char) (ps : List Piece) :
    joinPieces? (pieceOf c :: ps) = (joinPieces? ps).map (c :: ·) := by
  unfold pieceOf
  split_ifs with h₁ h₂
  · rw [joinPieces?]
  · rw [joinPieces?_unit h₂, Char.ofNat_toNat]
  · rw [joinPieces?]

theorem stringOf?_pieceOf (s : String) : stringOf? (s.toList.map pieceOf) = some s := by
  have hjoin : ∀ cs : List Char, joinPieces? (cs.map pieceOf) = some cs := by
    intro cs
    induction cs with
    | nil => rfl
    | cons c cs ih => rw [List.map_cons, joinPieces?_pieceOf, ih, Option.map_some]
  rw [stringOf?, hjoin, Option.map_some, String.ofList_toList]

/-! ### Integers as literals -/

/-- The literal by which a written integer is read. -/
def literalOf (i : Int) : Literal := ⟨decide (i < 0), Nat.toDigits 10 i.natAbs, none, none⟩

/-- Nothing follows that a number could go on with. -/
def EndsNumber (input : Outline.Input) : Prop :=
  ∀ c rest, input = some c :: rest → c.isDigit = false ∧ c ≠ '.' ∧ c ≠ 'e' ∧ c ≠ 'E'

theorem readDigits_append {ds : List Char} (hds : ∀ c ∈ ds, c.isDigit = true)
    {rest : Outline.Input} (hr : EndsNumber rest) :
    Outline.readDigits (ds.map some ++ rest) = (ds, rest) := by
  induction ds with
  | nil =>
    rw [List.map_nil, List.nil_append]
    cases rest with
    | nil => rfl
    | cons o rest =>
      cases o with
      | none => rfl
      | some c =>
        rw [Outline.readDigits, (hr c rest rfl).1]
        rfl
  | cons c ds ih =>
    rw [List.map_cons, List.cons_append, Outline.readDigits, if_pos (hds c (by simp)),
      ih fun d hd => hds d (by simp [hd])]

theorem readFraction_of_endsNumber {rest : Outline.Input} (hr : EndsNumber rest) :
    Outline.readFraction rest = some (none, rest) := by
  unfold Outline.readFraction
  split
  · exact absurd rfl (hr _ _ rfl).2.1
  · rfl

theorem readExponent_of_endsNumber {rest : Outline.Input} (hr : EndsNumber rest) :
    Outline.readExponent rest = some (none, rest) := by
  unfold Outline.readExponent
  split
  · rw [if_neg]
    rintro (h | h)
    · exact (hr _ _ rfl).2.2.1 h
    · exact (hr _ _ rfl).2.2.2 h
  · rfl

/-- The digits of a positive number do not begin with a zero. -/
theorem toDigits_head {n : Nat} (hn : 0 < n) :
    ∃ d ds, Nat.toDigits 10 n = d :: ds ∧ d ≠ '0' := by
  induction n using Nat.strongRecOn with
  | ind n ih =>
    rcases Nat.lt_or_ge n 10 with h | h
    · refine ⟨n.digitChar, [], Nat.toDigits_of_lt_base h, ?_⟩
      rw [Ne, Nat.digitChar_eq_zero]
      omega
    · obtain ⟨d, ds, hd, hne⟩ := ih (n / 10) (by omega) (by omega)
      refine ⟨d, ds ++ [(n % 10).digitChar], ?_, hne⟩
      rw [Nat.toDigits_of_base_le (by decide) h, hd, List.cons_append]

theorem readNumber_toDigits (negative : Bool) (n : Nat) {rest : Outline.Input}
    (hr : EndsNumber rest) :
    Outline.readNumber negative ((Nat.toDigits 10 n).map some ++ rest)
      = some (⟨negative, Nat.toDigits 10 n, none, none⟩, rest) := by
  have hdigits : ∀ c ∈ Nat.toDigits 10 n, c.isDigit = true := fun c hc =>
    Nat.isDigit_of_mem_toDigits (by decide) (by decide) hc
  unfold Outline.readNumber
  rw [readDigits_append hdigits hr]
  dsimp only
  split
  · exact absurd ‹_› Nat.toDigits_ne_nil
  · rename_i h
    rcases Nat.eq_zero_or_pos n with rfl | hn
    · rw [Nat.toDigits_zero] at h
      cases h
    · obtain ⟨d, ds, hd, hne⟩ := toDigits_head hn
      rw [hd] at h
      exact absurd (List.cons.inj h).1 hne
  · rw [readFraction_of_endsNumber hr]
    simp only [Option.bind_eq_bind, Option.bind_some]
    rw [readExponent_of_endsNumber hr]
    rfl

theorem le_ofDigitChars (ds : List Char) (n : Nat) : n ≤ Nat.ofDigitChars 10 ds n := by
  induction ds generalizing n with
  | nil => exact Nat.le_of_eq Nat.ofDigitChars_nil.symm
  | cons d ds ih =>
    rw [Nat.ofDigitChars_cons]
    exact Nat.le_trans (by omega) (ih _)

/-- All digits are taken as long as the number fits. -/
theorem takeDigits_eq {ds : List Char} {n : Nat} (h : Nat.ofDigitChars 10 ds n < wordLimit) :
    takeDigits n ds = (Nat.ofDigitChars 10 ds n, 0) := by
  induction ds generalizing n with
  | nil => rw [Nat.ofDigitChars_nil, takeDigits]
  | cons d ds ih =>
    rw [Nat.ofDigitChars_cons, Nat.mul_comm] at h ⊢
    rw [takeDigits, if_pos (Nat.lt_of_le_of_lt (le_ofDigitChars ds _) h), ih h]

/-- An integer of 64 bits, with or without sign, is read as it was written. -/
theorem number?_literalOf {i : Int} (hlow : -9223372036854775808 ≤ i)
    (hhigh : i < 18446744073709551616) : (literalOf i).number? = some (.integer i) := by
  have hfits : Nat.ofDigitChars 10 (Nat.toDigits 10 i.natAbs) 0 < wordLimit := by
    rw [Nat.ofDigitChars_ten_toDigits, wordLimit]
    omega
  unfold Literal.number? literalOf
  dsimp only
  rw [takeDigits_eq hfits, Nat.ofDigitChars_ten_toDigits]
  dsimp only
  rw [if_pos ⟨rfl, rfl, rfl⟩]
  by_cases hneg : i < 0
  · rw [if_pos (decide_eq_true hneg), if_pos (by omega)]
    have habs : (-(i.natAbs : Int)) = i := by omega
    rw [habs]
  · rw [if_neg (by simpa using hneg)]
    have habs : (i.natAbs : Int) = i := by omega
    rw [habs]

end ShopTables.Json
