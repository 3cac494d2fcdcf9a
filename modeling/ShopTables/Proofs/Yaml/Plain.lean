import ShopTables.Proofs.Yaml.Words

/-!
# Plain scalars are read back

A plain scalar of one line is read word by word up to the line's end; the next line is no part of
it since it is not indented far enough (`Place.readPlain?_line`). Nothing inside ends it before: no
word but the last ends with a colon, and none after a blank begins with a number sign
(`StaysPlain`). A name before a colon is a plain scalar too (`Place.readPlain?_name`).
-/

namespace ShopTables.Yaml

/-! ### Words -/

theorem plainWord?_of_endsWord {rest : List Char} (h : endsWord rest = true) :
    plainWord? false rest = some [] := by
  cases rest with
  | nil => rfl
  | cons c rest => exact if_pos h

/-- A word that does not end with a colon is read whole. -/
theorem plainWord?_word {w rest : List Char} (hw : ∀ c ∈ w, isGap c = false)
    (hlast : w.getLast? ≠ some ':') (hend : plainWord? false rest = some []) :
    plainWord? false (w ++ rest) = some w := by
  induction w with
  | nil => exact hend
  | cons c w ih =>
    have hc : ¬ (isBlank c || isBreak c) = true := Bool.eq_false_iff.mp (hw c List.mem_cons_self)
    have hcolon : ¬ (c == ':' && endsWord (w ++ rest)) = true := by
      cases w with
      | nil =>
        have hc : c ≠ ':' := by simpa using hlast
        simp [hc]
      | cons d w =>
        have hd : isGap d = false := hw d (List.mem_cons_of_mem _ List.mem_cons_self)
        rw [show endsWord (d :: w ++ rest) = false from hd, Bool.and_false]
        exact Bool.false_ne_true
    have hlast' : w.getLast? ≠ some ':' := by
      cases w with
      | nil => simp
      | cons d w => simpa using hlast
    rw [List.cons_append, plainWord?, if_neg hc, Bool.false_and, Bool.false_and, Bool.false_and,
      Bool.or_false, if_neg Bool.false_ne_true, if_neg hcolon,
      ih (fun d hd => hw d (List.mem_cons_of_mem _ hd)) hlast']
    rfl

/-! ### Names -/

/-- Is it a small letter or a low line? Names are of these. -/
def isNameChar (c : Char) : Bool :=
  (decide (97 ≤ c.toNat) && decide (c.toNat ≤ 122)) || c == '_'

/-- Is a text a name? -/
def isName (cs : List Char) : Bool := !cs.isEmpty && cs.all isNameChar

theorem isGap_of_isNameChar {c : Char} (h : isNameChar c = true) : isGap c = false :=
  isGap_of_kind (by decide) h

theorem isName_iff {cs : List Char} :
    isName cs = true ↔ cs ≠ [] ∧ ∀ c ∈ cs, isNameChar c = true := by
  rw [isName, Bool.and_eq_true, Bool.not_eq_true', List.isEmpty_eq_false_iff, List.all_eq_true]

theorem isNameChar_head {name rest : List Char} (h : isName name = true) :
    ∀ c ∈ (name ++ rest).head?, isNameChar c = true := by
  obtain ⟨hne, hchars⟩ := isName_iff.mp h
  rw [List.head?_append_of_ne_nil _ hne]
  exact fun c hc => hchars c (List.mem_of_head? hc)

theorem head?_ne_blank {name rest : List Char} (h : isName name = true) :
    (name ++ rest).head? ≠ some ' ' := fun hc =>
  absurd (isNameChar_head h ' ' hc) (by decide)

/-! ### Texts of one line -/

/-- Can the text be read as a plain scalar to the end of the line, once it has begun? -/
structure StaysPlain (cs : List Char) : Prop where
  word : ∀ c ∈ cs, c ≠ ' ' → isGap c = false
  colon : hasPair (· == ':') isGap cs = false
  comment : hasPair isGap (· == '#') cs = false
  lastColon : cs.getLast? ≠ some ':'
  lastBlank : cs.getLast? ≠ some ' '

theorem StaysPlain.of_suffix {part cs : List Char} (hpart : part <:+ cs) (h : StaysPlain cs) :
    StaysPlain part := by
  obtain ⟨before, rfl⟩ := hpart
  have hlast : ∀ c, part.getLast? = some c → (before ++ part).getLast? = some c := fun c hc => by
    rw [List.getLast?_append, hc, Option.some_or]
  have hpart : part <:+: before ++ part := (List.suffix_append before part).isInfix
  exact {
    word := fun c hc => h.word c (hpart.mem hc)
    colon := hasPair_of_part hpart h.colon
    comment := hasPair_of_part hpart h.comment
    lastColon := fun hc => h.lastColon (hlast _ hc)
    lastBlank := fun hc => h.lastBlank (hlast _ hc) }

theorem staysPlain_of_allowsPlain {cs : List Char} (h : allowsPlain cs = true) : StaysPlain cs := by
  simp only [allowsPlain, hasInnerIndicator, hasOuterGap, Bool.not_eq_true', Bool.or_eq_false_iff,
    needsEscapes_eq_false_iff, List.any_eq_false, Option.any_eq_false, Bool.not_eq_true,
    beq_eq_false_iff_ne] at h
  obtain ⟨⟨⟨⟨⟨hprintable, -⟩, hline⟩, -, hlast⟩, -⟩, ⟨hcolon, hlastColon⟩, hcomment⟩ := h
  exact {
    word := fun c hc hne => by
      rw [isGap, hline c hc, Bool.or_false, ← Bool.not_eq_true, isBlank_iff (hprintable c hc)]
      exact hne
    colon := hcolon
    comment := hcomment
    lastColon := hlastColon
    lastBlank := fun hc => (hlast ' ' hc).1 rfl }

/-- Can a plain scalar begin so, and be nothing else? -/
structure BeginsPlainly (c : Char) (cs : List Char) : Prop where
  printable : isPrintable c = true
  word : isGap c = false
  indicator : c ∉ leadingIndicators
  mark : c = '-' ∨ c = '?' ∨ c = ':' → endsWord cs = false

theorem isPrintable_of_allowsPlain {cs : List Char} (h : allowsPlain cs = true) :
    ∀ c ∈ cs, isPrintable c = true := by
  simp only [allowsPlain, Bool.not_eq_true', Bool.or_eq_false_iff, needsEscapes_eq_false_iff] at h
  exact h.1.1.1.1.1

theorem endsWord_of_colon {cs : List Char} (h : StaysPlain (':' :: cs)) : endsWord cs = false := by
  cases cs with
  | nil => exact absurd rfl h.lastColon
  | cons d cs => exact hasPair_eq_false_iff.mp h.colon ':' d ⟨[], cs, rfl⟩ rfl

theorem beginsPlainly_of_allowsPlain {c : Char} {cs : List Char}
    (h : allowsPlain (c :: cs) = true) : BeginsPlainly c cs := by
  have hplain := staysPlain_of_allowsPlain h
  simp only [allowsPlain, hasOuterGap, hasLeadingIndicator, Bool.not_eq_true',
    Bool.or_eq_false_iff, needsEscapes_eq_false_iff, Option.any_eq_false, List.head?_cons] at h
  obtain ⟨⟨⟨⟨⟨hprintable, -⟩, -⟩, hhead, -⟩, ⟨⟨hindicator, hdash⟩, -⟩, -⟩, -⟩ := h
  exact {
    printable := hprintable c List.mem_cons_self
    word := hplain.word c List.mem_cons_self (by simpa using (hhead c rfl).1)
    indicator := by rwa [← Bool.not_eq_true, List.contains_iff_mem] at hindicator
    mark := by
      rintro (rfl | rfl | rfl)
      · exact hdash
      · exact hdash
      · exact endsWord_of_colon hplain }

section

variable {w cs : List Char} {n : Nat} (h : StaysPlain (w ++ (List.replicate (n + 1) ' ' ++ cs)))

include h

theorem StaysPlain.after_blanks : StaysPlain cs :=
  h.of_suffix ⟨w ++ List.replicate (n + 1) ' ', by simp⟩

theorem StaysPlain.before_blanks : w.getLast? ≠ some ':' := by
  intro hw
  obtain ⟨before, rfl⟩ := List.getLast?_eq_some_iff.mp hw
  have hpair := hasPair_eq_false_iff.mp h.colon ':' ' '
    ⟨before, List.replicate n ' ' ++ cs, by simp [List.replicate_succ]⟩ rfl
  exact absurd hpair (by decide)

theorem StaysPlain.head?_after_blanks : cs ≠ [] ∧ cs.head? ≠ some '#' := by
  constructor
  · rintro rfl
    exact h.lastBlank (by simp [List.getLast?_append, List.getLast?_replicate])
  · intro hcs
    obtain ⟨after, rfl⟩ := List.head?_eq_some_iff.mp hcs
    have hpair := hasPair_eq_false_iff.mp h.comment ' ' '#'
      ⟨w ++ List.replicate n ' ', after, by simp [List.replicate_succ']⟩ rfl
    exact absurd hpair (by decide)

end

namespace Place

variable {p : Place} {indent column : Nat} {next : List Char} {gap : Gap}

/-- How a plain scalar goes on after a word and a gap: not at all, if the line is not indented far
enough. -/
theorem plainFrom?_word {w rest : List Char} {g : Gap} {r : Place} (hcolumn : p.column ≠ 0)
    (hne : w ≠ []) (hw : ∀ c ∈ w, isGap c = false) (hcomment : w.head? ≠ some '#')
    (hlast : w.getLast? ≠ some ':') (hrest : endsWord rest = true) (hmore : rest ≠ [])
    (h : p.rest = w ++ rest)
    (hgap : (p.skip w.length).readGap? (indent + 1) {} = some (g, r)) :
    p.plainFrom? false (indent + 1) gap
      = if (r.column : Int) < indent + 1 then some (gap.text ++ w, g.broken, r)
        else if r.rest.length < p.rest.length then
          (r.plainFrom? false (indent + 1) g).map fun (more, broken, s) =>
            (gap.text ++ w ++ more, broken, s)
        else none := by
  have hat : p.isAt '#' = false := by
    rw [isAt, h, List.head?_append_of_ne_nil _ hne, beq_eq_false_iff_ne]
    exact hcomment
  have hword : plainWord? false p.rest = some w :=
    h ▸ plainWord?_word hw hlast (plainWord?_of_endsWord hrest)
  have hends : ((p.skip w.length).rest.isEmpty || !endsWord (p.skip w.length).rest) = false := by
    rw [rest_skip h, hrest, Bool.not_true, Bool.or_false, List.isEmpty_eq_false_iff]
    exact hmore
  obtain ⟨c, w, rfl⟩ := List.exists_cons_of_ne_nil hne
  rw [plainFrom?, isAtDocumentMark_of_column hcolumn, hat, hword]
  simp only [Bool.or_self, Bool.false_eq_true, if_false, hends, hgap, Bool.not_false,
    Bool.true_and, decide_eq_true_eq]

/-- A plain scalar ends at a line that is not indented far enough. -/
theorem plainFrom?_line {cs : List Char} (hplain : StaysPlain cs) (hne : cs ≠ [])
    (hblank : cs.head? ≠ some ' ') (hcomment : cs.head? ≠ some '#')
    (hcolumn : indent < p.column) (hleft : column ≤ indent)
    (hnext : ∀ c ∈ next.head?, isGap c = false)
    (h : p.rest = cs ++ '\n' :: (List.replicate column ' ' ++ next)) :
    ∃ q, p.plainFrom? false (indent + 1) gap = some (gap.text ++ cs, true, q)
      ∧ q.column = column ∧ q.rest = next := by
  have hinside : p.column ≠ 0 := Nat.ne_zero_of_lt hcolumn
  induction cs using words_induction (· == ' ') generalizing p gap with
  | word w hw =>
    have hw' : ∀ c ∈ w, isGap c = false := fun c hc => hplain.word c hc (by simpa using hw c hc)
    have hfeed : ∀ c ∈ ['\n'], isPrintable c = true ∧ isBreak c = true :=
      List.forall_mem_singleton.mpr ⟨rfl, rfl⟩
    obtain ⟨q, hq, hrest, hread⟩ := readGap?_breaks (indent + 1) hfeed (rest_skip h) hnext
    have hout : (q.column : Int) < indent + 1 := by omega
    refine ⟨q, ?_, hq, hrest⟩
    rw [plainFrom?_word hinside hne hw' hcomment hplain.lastColon rfl (List.cons_ne_nil _ _) h
      hread, if_pos hout]
  | gap w g cs hw hg hgne hhead ih =>
    have hw' : ∀ c ∈ w, isGap c = false := fun c hc =>
      hplain.word c (List.mem_append_left _ hc) (by simpa using hw c hc)
    obtain ⟨n, rfl⟩ : ∃ n, g = List.replicate n ' ' :=
      ⟨_, List.eq_replicate_of_mem (by simpa using hg)⟩
    obtain ⟨n, rfl⟩ := Nat.exists_eq_succ_of_ne_zero (by simpa using hgne)
    have hwne : w ≠ [] := by
      rintro rfl
      exact hblank rfl
    obtain ⟨hcne, hcomment'⟩ := hplain.head?_after_blanks
    have hplain' := hplain.after_blanks
    have hblank' : cs.head? ≠ some ' ' := fun hcs => by simpa using hhead ' ' hcs
    rw [List.append_assoc, List.append_assoc] at h
    rw [List.head?_append_of_ne_nil _ hwne] at hcomment
    have hhead' : ∀ c ∈ (cs ++ '\n' :: (List.replicate column ' ' ++ next)).head?,
        isGap c = false := fun c hc => by
      rw [List.head?_append_of_ne_nil _ hcne] at hc
      exact hplain'.word c (List.mem_of_head? hc) (by simpa using hhead c hc)
    have hread := readGap?_blanks (indent + 1) (rest_skip h) hhead'
    have hrest : ((p.skip w.length).skip (n + 1)).rest
        = cs ++ '\n' :: (List.replicate column ' ' ++ next) :=
      rest_skip_blanks (rest_skip h)
    have hin : indent < ((p.skip w.length).skip (n + 1)).column := by
      simp only [skip]
      omega
    obtain ⟨q, hq, hend⟩ := ih hplain' hcne hblank' hcomment' hin hrest (Nat.ne_zero_of_lt hin)
    have hshorter : ((p.skip w.length).skip (n + 1)).rest.length < p.rest.length := by
      simp only [hrest, h, List.length_append, List.length_replicate]
      omega
    have hin' : ¬ (((p.skip w.length).skip (n + 1)).column : Int) < indent + 1 := by omega
    refine ⟨q, ?_, hend⟩
    rw [plainFrom?_word hinside hwne hw' hcomment hplain.before_blanks rfl
      (List.append_ne_nil_of_left_ne_nil (List.cons_ne_nil _ _) _) h hread, if_neg hin',
      if_pos hshorter, hq, Option.map_some, ← List.append_assoc gap.text]
    rfl

/-- A text that may be written plainly is read back, and the next line may begin with a key. -/
theorem readPlain?_line {cs : List Char} (hplain : allowsPlain cs = true) (hne : cs ≠ [])
    (hcolumn : indent < p.column) (hleft : column ≤ indent)
    (hnext : ∀ c ∈ next.head?, isGap c = false)
    (h : p.rest = cs ++ '\n' :: (List.replicate column ' ' ++ next)) :
    ∃ q, p.readPlain? false indent = some (cs, true, q) ∧ q.column = column ∧ q.rest = next := by
  obtain ⟨c, cs, rfl⟩ := List.exists_cons_of_ne_nil hne
  have hbegins := beginsPlainly_of_allowsPlain hplain
  refine plainFrom?_line (staysPlain_of_allowsPlain hplain) hne ?_ ?_ hcolumn hleft hnext h
  · rintro ⟨⟩
    exact absurd hbegins.word (by decide)
  · rintro ⟨⟩
    exact hbegins.indicator List.mem_cons_self

section

variable {c d : Char} {cs : List Char} (h : p.rest = c :: cs) (hc : isNameChar c = true)
  (hd : isNameChar d = false)

include h hc hd

theorem isAt_of_isNameChar : p.isAt d = false := by
  rw [isAt_cons h, beq_eq_false_iff_ne]
  exact ne_of_kind hc hd

theorem isAtMark_of_isNameChar : p.isAtMark d = false := by
  have htake : (p.rest.take 3 == [d, d, d]) = false := by
    rw [h, beq_eq_false_iff_ne]
    exact fun hcs => ne_of_kind hc hd (List.cons.inj hcs).1
  rw [isAtMark, htake, Bool.and_false, Bool.false_and]

end

/-- A name ends at the colon after it. -/
theorem readPlain?_name {name rest : List Char} {least : Int} (hname : isName name = true)
    (hrest : endsWord rest = true) (h : p.rest = name ++ ':' :: rest) :
    p.readPlain? false least = some (name, false, p.skip name.length) := by
  obtain ⟨hne, hchars⟩ := isName_iff.mp hname
  obtain ⟨c, name, rfl⟩ := List.exists_cons_of_ne_nil hne
  have hc := hchars c List.mem_cons_self
  have hmark : p.isAtDocumentMark = false := by
    rw [isAtDocumentMark, isAtMark_of_isNameChar h hc rfl, isAtMark_of_isNameChar h hc rfl,
      Bool.or_self]
  have hend : plainWord? false (':' :: rest) = some [] := by
    simp [plainWord?, isBlank, isBreak, hrest]
  have hlast : (c :: name).getLast? ≠ some ':' := fun hcs =>
    ne_of_kind (hchars _ (List.mem_of_getLast? hcs)) rfl rfl
  have hword : plainWord? false p.rest = some (c :: name) :=
    h ▸ plainWord?_word (fun d hd => isGap_of_isNameChar (hchars d hd)) hlast hend
  have hends : ((p.skip (c :: name).length).rest.isEmpty
      || !endsWord (p.skip (c :: name).length).rest) = true := by
    rw [rest_skip h]
    rfl
  rw [readPlain?, plainFrom?, hmark, isAt_of_isNameChar h hc rfl, hword]
  simp only [Bool.or_self, Bool.false_eq_true, if_false, hends, if_true]
  rfl

end Place

end ShopTables.Yaml
