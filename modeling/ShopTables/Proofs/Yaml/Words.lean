import Mathlib.Data.List.Basic
import Mathlib.Data.List.Infix
import Mathlib.Data.List.TakeWhile
import ShopTables.Yaml.Printer

/-!
# Words and gaps

A text is words with gaps between them: blanks and line breaks (`words_induction`). Of the
characters that are written as they are, only the blank, the line feed and the two separators of
lines and paragraphs make gaps (`eq_of_isBreak`, `isBlank_iff`). A run of blanks is read as it is
(`Place.readGap?_blanks`); of a run of line breaks each is read, and the blanks after the last one
are passed over, however many they are (`Place.readGap?_breaks`).
-/

namespace ShopTables.Yaml

/-! ### Characters -/

/-- Does a character stand between words? -/
def isGap (c : Char) : Bool := isBlank c || isBreak c

theorem isBreak_of_isGap {c : Char} (h : isGap c = false) : isBreak c = false :=
  (Bool.or_eq_false_iff.mp h).2

theorem ne_tab_of_isGap {c : Char} (h : isGap c = false) : c ≠ '\t' := by
  rintro rfl
  cases h

section

variable {f : Char → Bool} {c : Char} (hc : f c = true)

include hc

theorem ne_of_kind {d : Char} (hd : f d = false) : c ≠ d := by
  rintro rfl
  exact Bool.false_ne_true (hd.symm.trans hc)

theorem not_mem_of_kind {ds : List Char} (hds : ds.any f = false) : c ∉ ds := fun hmem =>
  List.any_eq_false.mp hds c hmem hc

end

/-- The characters that stand between words. -/
def gaps : List Char := [' ', '\t', '\n', '\r', '\u0085', lineSeparator, paragraphSeparator]

/-- A character of a kind without gaps is none. -/
theorem isGap_of_kind {f : Char → Bool} {c : Char} (hf : gaps.any f = false)
    (hc : f c = true) : isGap c = false := by
  have hnone := not_mem_of_kind hc hf
  simp only [gaps, List.mem_cons, not_or] at hnone
  simp [isGap, isBlank, isBreak, hnone]

theorem isBreak_iff {c : Char} : isBreak c = true ↔
    c = '\n' ∨ c = '\r' ∨ c = '\u0085' ∨ c = lineSeparator ∨ c = paragraphSeparator := by
  simp only [isBreak, Bool.or_eq_true, beq_iff_eq, or_assoc]

section

variable {c : Char} (h : isPrintable c = true)

include h

/-- The line breaks that are written as they are. -/
theorem eq_of_isBreak (hbreak : isBreak c = true) :
    c = '\n' ∨ c = lineSeparator ∨ c = paragraphSeparator := by
  obtain rfl | rfl | rfl | hc | hc := isBreak_iff.mp hbreak
  · exact .inl rfl
  · cases h
  · cases h
  · exact .inr (.inl hc)
  · exact .inr (.inr hc)

/-- They stand for themselves. -/
theorem breakText_of_isPrintable (hbreak : isBreak c = true) : breakText c = [c] := by
  obtain rfl | rfl | rfl := eq_of_isBreak h hbreak <;> rfl

theorem ne_return_of_isPrintable : c ≠ '\r' := by
  rintro rfl
  cases h

theorem isBlank_iff : isBlank c = true ↔ c = ' ' := by
  have htab : c ≠ '\t' := by
    rintro rfl
    cases h
  simp only [isBlank, Bool.or_eq_true, beq_iff_eq, htab, or_false]

theorem isAllowed_of_isPrintable : isAllowed c = true := by
  simp only [isPrintable, isAllowed, Bool.or_eq_true, Bool.and_eq_true, beq_iff_eq,
    decide_eq_true_eq] at h ⊢
  omega

end

/-! ### Words -/

/-- Every text is a word, or a word and a gap before a text that begins with a word. -/
theorem words_induction {motive : List Char → Prop} (separates : Char → Bool)
    (word : ∀ w, (∀ c ∈ w, separates c = false) → motive w)
    (gap : ∀ w g cs, (∀ c ∈ w, separates c = false) → (∀ c ∈ g, separates c = true) → g ≠ [] →
      (∀ c ∈ cs.head?, separates c = false) → motive cs → motive (w ++ (g ++ cs)))
    (cs : List Char) : motive cs := by
  -- by the length: what follows the first gap is shorter
  induction hn : cs.length using Nat.strong_induction_on generalizing cs with
  | _ n ih =>
    have hword : ∀ c ∈ cs.takeWhile (!separates ·), separates c = false := fun c hc => by
      simpa using List.mem_takeWhile_imp hc
    have hsplit := List.takeWhile_append_dropWhile (p := (!separates ·)) (l := cs)
    cases hrest : cs.dropWhile (!separates ·) with
    | nil =>
      rw [hrest, List.append_nil] at hsplit
      exact hsplit ▸ word _ hword
    | cons d ds =>
      have hd : separates d = true := by
        have hhead := List.head?_dropWhile_not (!separates ·) cs
        rw [hrest] at hhead
        simpa using hhead
      have hgap : ∀ c ∈ (d :: ds).takeWhile separates, separates c = true := fun c hc =>
        List.mem_takeWhile_imp hc
      have hne : (d :: ds).takeWhile separates ≠ [] := by
        rw [List.takeWhile_cons, if_pos hd]
        exact List.cons_ne_nil _ _
      have hnext : ∀ c ∈ ((d :: ds).dropWhile separates).head?, separates c = false := by
        intro c hc
        have hhead := List.head?_dropWhile_not separates (d :: ds)
        rw [Option.mem_def.mp hc] at hhead
        exact hhead
      have hshorter : ((d :: ds).dropWhile separates).length < n := by
        have hlengths := congrArg List.length hsplit
        have htail := (List.dropWhile_sublist (p := separates) (l := ds)).length_le
        rw [List.length_append, hrest, List.length_cons] at hlengths
        rw [List.dropWhile_cons, if_pos hd]
        omega
      have hfirst := gap _ _ _ hword hgap hne hnext (ih _ hshorter _ rfl)
      rwa [List.takeWhile_append_dropWhile, ← hrest, hsplit] at hfirst

/-! ### Neighbours -/

/-- A text has no pair of neighbours of two kinds exactly if no two neighbours are of them. -/
theorem hasPair_eq_false_iff {f g : Char → Bool} {cs : List Char} :
    hasPair f g cs = false ↔ ∀ c d, [c, d] <:+: cs → f c = true → g d = false := by
  fun_induction hasPair f g cs with
  | case1 c d cs ih =>
    rw [Bool.or_eq_false_iff, ih, Bool.and_eq_false_imp]
    constructor
    · rintro ⟨hfirst, hrest⟩ a b hab
      obtain hprefix | hinfix := List.infix_cons_iff.mp hab
      · obtain ⟨rfl, hb⟩ := List.cons_prefix_cons.mp hprefix
        obtain ⟨rfl, -⟩ := List.cons_prefix_cons.mp hb
        exact hfirst
      · exact hrest a b hinfix
    · intro h
      refine ⟨h c d ?_, fun a b hab => h a b (List.infix_cons hab)⟩
      exact (List.prefix_append [c, d] cs).isInfix
  | case2 cs hshort =>
    refine iff_of_true rfl fun c d hcd => ?_
    obtain ⟨before, after, rfl⟩ := hcd
    cases before with
    | nil => exact (hshort c d after rfl).elim
    | cons a before =>
      cases before with
      | nil => exact (hshort a c (d :: after) rfl).elim
      | cons b before => exact (hshort a b _ rfl).elim

/-- A part of a text has no more pairs of neighbours than the text. -/
theorem hasPair_of_part {f g : Char → Bool} {part cs : List Char} (hpart : part <:+: cs)
    (h : hasPair f g cs = false) : hasPair f g part = false :=
  hasPair_eq_false_iff.mpr fun c d hcd => hasPair_eq_false_iff.mp h c d (hcd.trans hpart)

/-- A text needs no escapes if it is printable and no blank ends a line. -/
theorem needsEscapes_eq_false_iff {cs : List Char} : needsEscapes cs = false ↔
    (∀ c ∈ cs, isPrintable c = true) ∧ hasPair (· == ' ') isBreak cs = false := by
  simp only [needsEscapes, Bool.or_eq_false_iff, List.any_eq_false, Bool.not_eq_true',
    Bool.not_eq_false]

/-! ### Written lines -/

section

variable {indent : Nat} {encode : Char → List Char} {cs : List Char}

/-- Within a line every character is written by itself. -/
theorem printLines_line {line : List Char} (hline : ∀ c ∈ line, isBreak c = false) :
    printLines indent encode false (line ++ cs)
      = line.flatMap encode ++ printLines indent encode false cs := by
  induction line with
  | nil => rfl
  | cons c line ih =>
    rw [List.cons_append, printLines, if_neg (Bool.eq_false_iff.mp (hline c List.mem_cons_self)),
      if_neg Bool.false_ne_true, ih fun d hd => hline d (List.mem_cons_of_mem _ hd),
      List.nil_append, List.flatMap_cons, List.append_assoc]

/-- Line breaks are written as they are, and a line may begin after them. -/
theorem printLines_breaks {start : Bool} {breaks : List Char} (hne : breaks ≠ [])
    (hbreaks : ∀ c ∈ breaks, isBreak c = true) :
    printLines indent encode start (breaks ++ cs) = breaks ++ printLines indent encode true cs := by
  induction breaks generalizing start with
  | nil => exact absurd rfl hne
  | cons b breaks ih =>
    rw [List.cons_append, printLines, if_pos (hbreaks b List.mem_cons_self)]
    cases breaks with
    | nil => rfl
    | cons d breaks =>
      rw [ih (List.cons_ne_nil _ _) fun c hc => hbreaks c (List.mem_cons_of_mem _ hc)]
      rfl

/-- A line that is not empty is indented. -/
theorem printLines_start (hne : cs ≠ []) (hhead : ∀ c ∈ cs.head?, isBreak c = false) :
    printLines indent encode true cs
      = List.replicate indent ' ' ++ printLines indent encode false cs := by
  cases cs with
  | nil => exact absurd rfl hne
  | cons c cs =>
    have hc : ¬ isBreak c = true := Bool.eq_false_iff.mp (hhead c rfl)
    rw [printLines, printLines, if_neg hc, if_neg hc, if_pos rfl, if_neg Bool.false_ne_true,
      List.nil_append, List.append_assoc]

/-- Whether a text ends with a line break is seen by what follows the line, if anything does. -/
theorem getLast?_any_isBreak {line : List Char} (hline : ∀ c ∈ line, isBreak c = false) :
    (line ++ cs).getLast?.any isBreak = cs.getLast?.any isBreak := by
  cases cs with
  | nil =>
    rw [List.append_nil, List.getLast?_nil, Option.any_none, Option.any_eq_false]
    exact fun c hc => by simpa using hline c (List.mem_of_getLast? hc)
  | cons c cs => rw [List.getLast?_append_cons]

theorem getLast?_any_isBreak_of_breaks {breaks : List Char} (hne : breaks ≠ [])
    (hbreaks : ∀ c ∈ breaks, isBreak c = true) : breaks.getLast?.any isBreak = true := by
  rw [List.getLast?_eq_some_getLast hne, Option.any_some]
  exact hbreaks _ (List.getLast_mem hne)

end

/-! ### Runs of one character -/

theorem flatMap_replicate_self {f : Char → List Char} {c : Char} (hc : f c = [c]) (n : Nat) :
    (List.replicate n c).flatMap f = List.replicate n c := by
  rw [List.flatMap_replicate, hc, List.flatten_replicate_singleton]

section

variable {f : Char → Bool} {cs : List Char}

theorem takeWhile_replicate_append {c : Char} (hc : f c = true) (n : Nat) :
    (List.replicate n c ++ cs).takeWhile f = List.replicate n c ++ cs.takeWhile f :=
  List.takeWhile_append_of_pos fun d hd => by rwa [List.eq_of_mem_replicate hd]

theorem takeWhile_eq_nil (h : ∀ c ∈ cs.head?, f c = false) : cs.takeWhile f = [] := by
  cases cs with
  | nil => rfl
  | cons c cs => exact List.takeWhile_cons_of_neg (by simp [h c rfl])

theorem not_blank_of_head? (h : cs.head? ≠ some ' ') : ∀ c ∈ cs.head?, (c == ' ') = false :=
  fun _ hc => beq_eq_false_iff_ne.mpr fun hblank => h (hblank ▸ hc)

end

/-! ### Places -/

namespace Place

theorem isAt_cons {p : Place} {c : Char} {cs : List Char} (h : p.rest = c :: cs) (d : Char) :
    p.isAt d = (c == d) := by
  rw [isAt, h]
  rfl

theorem skip_skip (m n : Nat) (p : Place) : (p.skip m).skip n = p.skip (m + n) := by
  simp only [skip, List.drop_drop, Nat.add_assoc]

theorem rest_skip {p : Place} {cs rest : List Char} (h : p.rest = cs ++ rest) :
    (p.skip cs.length).rest = rest := by
  show p.rest.drop cs.length = rest
  rw [h, List.drop_left]

theorem rest_skip_one {p : Place} {c : Char} {rest : List Char} (h : p.rest = c :: rest) :
    (p.skip 1).rest = rest := by
  have hone : p.rest = [c] ++ rest := h
  exact rest_skip hone

theorem rest_skip_blanks {p : Place} {n : Nat} {rest : List Char}
    (h : p.rest = List.replicate n ' ' ++ rest) : (p.skip n).rest = rest := by
  simpa only [List.length_replicate] using rest_skip h

theorem skipBreak_eq {p : Place} {c : Char} {cs : List Char} (h : p.rest = c :: cs)
    (hbreak : isBreak c = true) (hreturn : c ≠ '\r') :
    p.skipBreak = ⟨p.index + 1, p.line + 1, 0, cs⟩ := by
  unfold skipBreak
  split
  · rename_i h'
    rw [h] at h'
    cases h'
    exact absurd rfl hreturn
  · rename_i h'
    rw [h] at h'
    cases h'
    rw [if_pos hbreak]
  · rename_i h'
    rw [h] at h'
    cases h'

theorem isAtDocumentMark_of_column {p : Place} (h : p.column ≠ 0) : p.isAtDocumentMark = false := by
  have hcolumn : (p.column == 0) = false := beq_eq_false_iff_ne.mpr h
  simp only [isAtDocumentMark, isAtMark, hcolumn, Bool.false_and, Bool.or_false]

variable {least : Int} {g : Gap} {p : Place}

/-! ### Reading gaps -/

theorem readGap?_of_stop (h : ∀ c ∈ p.rest.head?, isGap c = false) :
    p.readGap? least g = some (g, p) := by
  rw [readGap?]
  split
  · rfl
  · rename_i c cs hrest
    have hc := h c (by rw [hrest]; rfl)
    simp only [isGap, Bool.or_eq_false_iff] at hc
    simp only [hc.1, hc.2, Bool.false_eq_true, if_false, dite_false]

theorem readGap?_blank {cs : List Char} (h : p.rest = ' ' :: cs) :
    p.readGap? least g = (p.skip 1).readGap? least (g.addBlank ' ') := by
  rw [readGap?]
  split
  · rename_i h'
    rw [h] at h'
    cases h'
  · rename_i h'
    rw [h] at h'
    cases h'
    simp [isBlank]

theorem readGap?_break {c : Char} {cs : List Char} (h : p.rest = c :: cs)
    (hprintable : isPrintable c = true) (hbreak : isBreak c = true) :
    p.readGap? least g
      = (Place.mk (p.index + 1) (p.line + 1) 0 cs).readGap? least (g.addBreak [c]) := by
  rw [readGap?]
  split
  · rename_i h'
    rw [h] at h'
    cases h'
  · rename_i h'
    rw [h] at h'
    cases h'
    have hblank : isBlank c = false := by
      obtain rfl | rfl | rfl := eq_of_isBreak hprintable hbreak <;> rfl
    rw [hblank, breakText_of_isPrintable hprintable hbreak,
      skipBreak_eq h hbreak (ne_return_of_isPrintable hprintable)]
    simp [hbreak]

/-- Blanks before any line break are kept. -/
theorem readGap?_replicate {n : Nat} {kept rest : List Char}
    (h : p.rest = List.replicate n ' ' ++ rest) :
    p.readGap? least { blanks := kept }
      = (p.skip n).readGap? least { blanks := kept ++ List.replicate n ' ' } := by
  induction n generalizing p kept with
  | zero =>
    rw [List.replicate_zero, List.append_nil]
    rfl
  | succ n ih =>
    have hstep : p.readGap? least { blanks := kept } = _ := readGap?_blank h
    have hnext : (p.skip 1).rest = List.replicate n ' ' ++ rest := rest_skip_one h
    rw [hstep, Gap.addBlank, if_neg Bool.false_ne_true, ih hnext, skip_skip, Nat.add_comm 1,
      List.append_assoc, List.replicate_succ]
    rfl

/-- Blanks after a line break are passed over. -/
theorem readGap?_indentation {n : Nat} {rest : List Char} (hbroken : g.broken = true)
    (h : p.rest = List.replicate n ' ' ++ rest) :
    p.readGap? least g = (p.skip n).readGap? least g := by
  induction n generalizing p with
  | zero => rfl
  | succ n ih =>
    have hnext : (p.skip 1).rest = List.replicate n ' ' ++ rest := rest_skip_one h
    rw [readGap?_blank h, Gap.addBlank, if_pos hbroken, ih hnext, skip_skip, Nat.add_comm 1]

variable (least) in
/-- A run of blanks is read as it is. -/
theorem readGap?_blanks {n : Nat} {rest : List Char} (h : p.rest = List.replicate n ' ' ++ rest)
    (hstop : ∀ c ∈ rest.head?, isGap c = false) :
    p.readGap? least {} = some ({ blanks := List.replicate n ' ' }, p.skip n) := by
  have hrest : (p.skip n).rest = rest := rest_skip_blanks h
  rw [readGap?_replicate h, List.nil_append, readGap?_of_stop (by rwa [hrest])]

/-- Line breaks after the first are all kept. -/
theorem readGap?_moreBreaks {breaks rest : List Char}
    (hbreaks : ∀ c ∈ breaks, isPrintable c = true ∧ isBreak c = true) (hbroken : g.broken = true)
    (hcolumn : p.column = 0) (h : p.rest = breaks ++ rest) :
    ∃ q : Place, q.column = 0 ∧ q.rest = rest
      ∧ p.readGap? least g = q.readGap? least { g with more := g.more ++ breaks } := by
  induction breaks generalizing p g with
  | nil =>
    rw [List.append_nil]
    exact ⟨p, hcolumn, h, rfl⟩
  | cons b breaks ih =>
    obtain ⟨hprintable, hbreak⟩ := hbreaks b List.mem_cons_self
    have hstep : p.readGap? least g = _ := readGap?_break h hprintable hbreak
    rw [Gap.addBreak, if_pos hbroken] at hstep
    obtain ⟨q, hcolumn', hrest, hread⟩ := ih (fun c hc => hbreaks c (List.mem_cons_of_mem _ hc))
      (g := { g with more := g.more ++ [b] }) hbroken
      (p := ⟨p.index + 1, p.line + 1, 0, breaks ++ rest⟩) rfl rfl
    refine ⟨q, hcolumn', hrest, hstep.trans (hread.trans ?_)⟩
    simp only [List.append_assoc, List.cons_append, List.nil_append]

variable (least) in
/-- A run of line breaks and the indentation after it. -/
theorem readGap?_breaks {b : Char} {breaks rest : List Char} {n : Nat}
    (hbreaks : ∀ c ∈ b :: breaks, isPrintable c = true ∧ isBreak c = true)
    (h : p.rest = b :: (breaks ++ (List.replicate n ' ' ++ rest)))
    (hstop : ∀ c ∈ rest.head?, isGap c = false) :
    ∃ q : Place, q.column = n ∧ q.rest = rest
      ∧ p.readGap? least {} = some ({ broken := true, first := [b], more := breaks }, q) := by
  obtain ⟨hprintable, hbreak⟩ := hbreaks b List.mem_cons_self
  have hfirst : p.readGap? least {} = _ := readGap?_break h hprintable hbreak
  obtain ⟨q, hcolumn, hrest, hread⟩ := @readGap?_moreBreaks least { broken := true, first := [b] }
    ⟨p.index + 1, p.line + 1, 0, breaks ++ (List.replicate n ' ' ++ rest)⟩ _ _
    (fun c hc => hbreaks c (List.mem_cons_of_mem _ hc)) rfl rfl rfl
  have hskip : (q.skip n).rest = rest := rest_skip_blanks hrest
  refine ⟨q.skip n, ?_, hskip, ?_⟩
  · show q.column + n = n
    rw [hcolumn, Nat.zero_add]
  · refine hfirst.trans (hread.trans ?_)
    rw [readGap?_indentation rfl hrest, readGap?_of_stop (by rwa [hskip])]
    rfl

end Place

end ShopTables.Yaml
