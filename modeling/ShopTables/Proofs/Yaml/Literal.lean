import ShopTables.Proofs.Yaml.Words

/-!
# Literal blocks are read back

A literal block is lines and runs of line breaks. Each line is indented to the block's column, so a
run of breaks is read up to the next line or up to what is indented less (`Place.blockGap?_breaks`),
and a line with the run after it is one step (`Place.blockLines?_line`). The hints after the
indicator tell the column where the text itself begins with a gap, and which of the last line breaks
belong to the text (`chompingOf`).
-/

namespace ShopTables.Yaml

/-! ### Runs of line breaks -/

/-- Does indentation that is read up to a column end after `n` blanks? The column 0 stands for one
that is to be found out. -/
def EndsIndentation (indent n : Nat) (rest : List Char) : Prop :=
  (n = indent ∧ n ≠ 0) ∨ ((indent = 0 ∨ n ≤ indent) ∧ rest.head? ≠ some ' ')

section

variable {indent column : Nat} {next : List Char} (hnext : ∀ c ∈ next.head?, isGap c = false)

include hnext

theorem endsIndentation_of_lt (hleft : column < indent) : EndsIndentation indent column next := by
  refine .inr ⟨.inr (Nat.le_of_lt hleft), fun hc => ?_⟩
  exact absurd (hnext ' ' hc) (by decide)

theorem startsLine_of_isGap : ∀ c ∈ next.head?, c ≠ '\t' ∧ isBreak c = false :=
  fun c hc => ⟨ne_tab_of_isGap (hnext c hc), isBreak_of_isGap (hnext c hc)⟩

end

namespace Place

variable {p : Place} {indent deepest n : Nat} {rest breaks : List Char}

theorem skipIndent_eq (hends : EndsIndentation indent n rest) (hcolumn : p.column = 0)
    (h : p.rest = List.replicate n ' ' ++ rest) : p.skipIndent indent = p.skip n := by
  have hwidth : (p.rest.takeWhile (· == ' ')).length
      = n + (rest.takeWhile (· == ' ')).length := by
    rw [h, takeWhile_replicate_append rfl, List.length_append, List.length_replicate]
  rw [skipIndent, hwidth, hcolumn, Nat.sub_zero]
  obtain ⟨rfl, hn⟩ | ⟨hindent, hhead⟩ := hends
  · rw [if_neg hn, Nat.min_eq_right (Nat.le_add_right _ _)]
  · rw [takeWhile_eq_nil (not_blank_of_head? hhead), List.length_nil, Nat.add_zero]
    split_ifs with hzero
    · rfl
    · rw [Nat.min_eq_left (hindent.resolve_left hzero)]

/-- An empty line is read. -/
theorem blockGap?_break {b : Char} {acc : List Char} (hprintable : isPrintable b = true)
    (hbreak : isBreak b = true) (hcolumn : p.column = 0) (h : p.rest = b :: rest) :
    p.blockGap? indent deepest acc
      = (Place.mk (p.index + 1) (p.line + 1) 0 rest).blockGap? indent deepest (acc ++ [b]) := by
  have hb : b ≠ ' ' ∧ b ≠ '\t' := by
    obtain rfl | rfl | rfl := eq_of_isBreak hprintable hbreak <;> decide
  have hskip : p.skipIndent indent = p :=
    skipIndent_eq (n := 0) (.inr ⟨.inr (Nat.zero_le _), by simpa using hb.1⟩) hcolumn h
  have htab : p.isAt '\t' = false := by
    rw [isAt, h, beq_eq_false_iff_ne]
    simpa using hb.2
  rw [blockGap?]
  simp only [hskip, htab, Bool.false_and, Bool.false_eq_true, if_false, hcolumn, Nat.max_zero]
  split
  · rename_i hc
    rw [hskip, h] at hc
    cases hc
  · rename_i hc
    rw [hskip, h] at hc
    cases hc
    simp only [hbreak, dite_true, breakText_of_isPrintable hprintable hbreak,
      skipBreak_eq h hbreak (ne_return_of_isPrintable hprintable)]

/-- A line is reached. -/
theorem blockGap?_stop {acc : List Char} (hends : EndsIndentation indent n rest)
    (hhead : ∀ c ∈ rest.head?, c ≠ '\t' ∧ isBreak c = false) (hcolumn : p.column = 0)
    (h : p.rest = List.replicate n ' ' ++ rest) :
    p.blockGap? indent deepest acc = some (acc, max deepest n, p.skip n) := by
  have hrest : (p.skip n).rest = rest := rest_skip_blanks h
  have htab : (p.skip n).isAt '\t' = false := by
    rw [isAt, hrest, beq_eq_false_iff_ne]
    exact fun hc => (hhead _ hc).1 rfl
  have hdeep : (p.skip n).column = n := by rw [skip, hcolumn, Nat.zero_add]
  rw [blockGap?]
  simp only [skipIndent_eq hends hcolumn h, htab, Bool.false_and, Bool.false_eq_true, if_false,
    hdeep]
  split
  · rfl
  · rename_i c cs hc
    rw [skipIndent_eq hends hcolumn h, hrest] at hc
    simp only [(hhead c (hc ▸ rfl)).2, Bool.false_eq_true, dite_false]

/-- A run of line breaks is read up to the next line. -/
theorem blockGap?_breaks (deepest : Nat) (acc : List Char)
    (hbreaks : ∀ c ∈ breaks, isPrintable c = true ∧ isBreak c = true)
    (hends : EndsIndentation indent n rest)
    (hhead : ∀ c ∈ rest.head?, c ≠ '\t' ∧ isBreak c = false) (hcolumn : p.column = 0)
    (h : p.rest = breaks ++ (List.replicate n ' ' ++ rest)) :
    ∃ q : Place, q.column = n ∧ q.rest = rest
      ∧ p.blockGap? indent deepest acc = some (acc ++ breaks, max deepest n, q) := by
  induction breaks generalizing p acc with
  | nil =>
    refine ⟨p.skip n, ?_, ?_, ?_⟩
    · rw [skip, hcolumn, Nat.zero_add]
    · exact rest_skip_blanks h
    · rw [List.append_nil]
      exact blockGap?_stop hends hhead hcolumn h
  | cons b breaks ih =>
    obtain ⟨hb, hbreaks⟩ := List.forall_mem_cons.mp hbreaks
    obtain ⟨q, hq, hrest, hread⟩ := ih (acc ++ [b]) hbreaks
      (p := ⟨p.index + 1, p.line + 1, 0, breaks ++ (List.replicate n ' ' ++ rest)⟩) rfl rfl
    refine ⟨q, hq, hrest, (blockGap?_break hb.1 hb.2 hcolumn h).trans (hread.trans ?_)⟩
    rw [List.append_assoc, List.singleton_append]

/-! ### Lines -/

theorem skipBreak_break {b : Char} (hprintable : isPrintable b = true) (hbreak : isBreak b = true)
    (h : p.rest = b :: rest) : p.skipBreak.column = 0 ∧ p.skipBreak.rest = rest := by
  rw [skipBreak_eq h hbreak (ne_return_of_isPrintable hprintable)]
  exact ⟨rfl, rfl⟩

/-- A line and the run of line breaks after it are read. -/
theorem blockLines?_line (chomping : Chomping) (g : LineGap) {line : List Char} {b : Char}
    (hline : ∀ c ∈ line, isBreak c = false) (hne : line ≠ [])
    (hbreaks : ∀ c ∈ b :: breaks, isPrintable c = true ∧ isBreak c = true)
    (hends : EndsIndentation indent n rest)
    (hhead : ∀ c ∈ rest.head?, c ≠ '\t' ∧ isBreak c = false) (hcolumn : p.column = indent)
    (h : p.rest = line ++ b :: (breaks ++ (List.replicate n ' ' ++ rest))) :
    ∃ (q : Place) (led : Bool), q.column = n ∧ q.rest = rest ∧ ∀ more s,
      q.blockLines? false chomping indent
          { lastBreak := [b], emptyBreaks := breaks, ledByBlank := led } = some (more, s) →
        p.blockLines? false chomping indent g
          = some (g.lastBreak ++ g.emptyBreaks ++ (line ++ more), s) := by
  obtain ⟨⟨hprintable, hbreak⟩, hbreaks⟩ := List.forall_mem_cons.mp hbreaks
  have hrest := rest_skip h
  obtain ⟨hcolumn', hrest'⟩ := skipBreak_break hprintable hbreak hrest
  obtain ⟨q, hq, hend, hread⟩ := blockGap?_breaks 0 [] hbreaks hends hhead hcolumn' hrest'
  obtain ⟨c, line, rfl⟩ := List.exists_cons_of_ne_nil hne
  refine ⟨q, isBlank c, hq, hend, fun more s hmore => ?_⟩
  have htake : p.rest.takeWhile (!isBreak ·) = c :: line := by
    rw [h, List.takeWhile_append_of_pos fun d hd => by simpa using hline d hd,
      List.takeWhile_cons_of_neg (by simpa using hbreak), List.append_nil]
  have hshorter : q.rest.length < p.rest.length := by
    simp only [hend, h, List.length_append, List.length_cons]
    omega
  have hcons : p.rest = c :: (line ++ b :: (breaks ++ (List.replicate n ' ' ++ rest))) := h
  rw [blockLines?, if_neg (not_not.mpr hcolumn)]
  split
  · rename_i h'
    rw [hcons] at h'
    cases h'
  · rename_i h'
    rw [hcons] at h'
    cases h'
    rw [List.nil_append] at hread
    rw [← List.append_assoc _ (c :: line) more]
    simp only [htake, hrest, hread, List.head?_cons, Option.map_some, Option.getD_some,
      breakText_of_isPrintable hprintable hbreak, hshorter, if_true, hmore]
    rfl

end Place

/-! ### What is written -/

/-- What becomes of the line breaks at the end of a text. -/
def chompingOf (cs : List Char) : Chomping :=
  match cs.reverse with
  | [] => .strip
  | c :: ds => if !isBreak c then .strip else if ds.head?.all isBreak then .keep else .clip

theorem literalHints_eq (cs : List Char) : literalHints cs
    = (if cs.head?.any (fun c => c == ' ' || isBreak c) then ['2'] else [])
      ++ match chompingOf cs with
        | .strip => ['-']
        | .clip => []
        | .keep => ['+'] := by
  unfold literalHints chompingOf
  cases cs.reverse with
  | nil => rfl
  | cons c ds =>
    dsimp only
    split_ifs <;> rfl

theorem chompingOf_concat (cs : List Char) (c : Char) : chompingOf (cs ++ [c])
    = if !isBreak c then .strip else if cs.getLast?.all isBreak then .keep else .clip := by
  rw [chompingOf, List.reverse_append, List.reverse_singleton, List.singleton_append,
    ← List.head?_reverse]

section

variable {w breaks cs : List Char} (hw : ∀ c ∈ w, isBreak c = false)
  (hbreaks : ∀ c ∈ breaks, isBreak c = true)

/-- What precedes the last line does not matter. -/
theorem chompingOf_append (hhead : ∀ c ∈ cs.head?, isBreak c = false) (hne : cs ≠ [])
    (before : List Char) : chompingOf (before ++ cs) = chompingOf cs := by
  obtain ⟨c, cs, rfl⟩ := List.exists_cons_of_ne_nil hne
  have hc : isBreak c = false := hhead c rfl
  obtain rfl | ⟨ds, d, rfl⟩ := List.eq_nil_or_concat cs
  · rw [chompingOf_concat, hc]
    simp [chompingOf, hc]
  · rw [List.concat_eq_append, ← List.cons_append, ← List.append_assoc, chompingOf_concat,
      chompingOf_concat, List.getLast?_append_cons]

include hw in
/-- Without a line break at its end, a text ends with its last line. -/
theorem chompingOf_word (hne : w ≠ []) : chompingOf w = .strip := by
  obtain rfl | ⟨ds, d, rfl⟩ := List.eq_nil_or_concat w
  · exact absurd rfl hne
  · rw [List.concat_eq_append, chompingOf_concat, hw d (by simp)]
    rfl

include hbreaks in
/-- An empty line at the end is kept. -/
theorem chompingOf_breaks (hne : breaks ≠ []) : chompingOf breaks = .keep := by
  obtain rfl | ⟨ds, d, rfl⟩ := List.eq_nil_or_concat breaks
  · exact absurd rfl hne
  · have hlast : ds.getLast?.all isBreak = true := by
      rw [Option.all_eq_true]
      exact fun c hc => hbreaks c (by simp [List.mem_of_getLast? hc])
    rw [List.concat_eq_append, chompingOf_concat, hbreaks d (by simp), hlast]
    rfl

include hw hbreaks in
/-- All line breaks at the end of a text are read as such. -/
theorem chomped_chompingOf {b : Char} {led : Bool} (hne : w ≠ []) (hb : isBreak b = true) :
    LineGap.chomped (chompingOf (w ++ b :: breaks))
      { lastBreak := [b], emptyBreaks := breaks, ledByBlank := led } = b :: breaks := by
  obtain rfl | ⟨ds, d, rfl⟩ := List.eq_nil_or_concat breaks
  · have hlast : w.getLast?.all isBreak = false := by
      rw [List.getLast?_eq_some_getLast hne, Option.all_some, hw _ (List.getLast_mem hne)]
    rw [chompingOf_concat, hb, hlast]
    rfl
  · have hlast : (w ++ b :: ds).getLast?.all isBreak = true := by
      rw [List.getLast?_append_cons, Option.all_eq_true]
      intro c hc
      obtain rfl | hc := List.mem_cons.mp (List.mem_of_getLast? hc)
      · exact hb
      · exact hbreaks c (by simp [hc])
    rw [List.concat_eq_append, ← List.cons_append, ← List.append_assoc, chompingOf_concat,
      hbreaks d (by simp), hlast]
    rfl

end

/-- The lines of a literal block, and the end of the last one. -/
def literalRest (indent : Nat) (atStart : Bool) (cs : List Char) : List Char :=
  printLines indent ([·]) atStart cs ++ if cs.getLast?.any isBreak then [] else ['\n']

section

variable {indent : Nat} {line breaks cs : List Char}

theorem literalRest_line (hline : ∀ c ∈ line, isBreak c = false) :
    literalRest indent false (line ++ cs) = line ++ literalRest indent false cs := by
  simp only [literalRest, printLines_line hline, getLast?_any_isBreak hline,
    List.flatMap_singleton', List.append_assoc]

/-- At the end of a text, its line breaks end the last line. -/
theorem literalRest_breaks {atStart : Bool} (hne : breaks ≠ [])
    (hbreaks : ∀ c ∈ breaks, isBreak c = true) : literalRest indent atStart breaks = breaks := by
  have hlines : printLines indent ([·]) atStart (breaks ++ []) = _ :=
    printLines_breaks hne hbreaks
  rw [List.append_nil] at hlines
  rw [literalRest, hlines, getLast?_any_isBreak_of_breaks hne hbreaks, if_pos rfl, printLines,
    List.append_nil, List.append_nil]

/-- A line is indented, whatever line breaks precede it. -/
theorem literalRest_breaks_append {breaks : List Char} (hbreaks : ∀ c ∈ breaks, isBreak c = true)
    (hne : cs ≠ []) (hhead : ∀ c ∈ cs.head?, isBreak c = false) :
    literalRest indent true (breaks ++ cs)
      = breaks ++ (List.replicate indent ' ' ++ literalRest indent false cs) := by
  have hlines : printLines indent ([·]) true (breaks ++ cs)
      = breaks ++ printLines indent ([·]) true cs := by
    by_cases hempty : breaks = []
    · rw [hempty, List.nil_append, List.nil_append]
    · exact printLines_breaks hempty hbreaks
  obtain ⟨c, cs, rfl⟩ := List.exists_cons_of_ne_nil hne
  rw [literalRest, hlines, printLines_start hne hhead, List.getLast?_append_cons,
    List.append_assoc, List.append_assoc]
  rfl

theorem literalRest_of_breaks_cons {b : Char} {breaks : List Char} (hb : isBreak b = true) :
    literalRest indent false (b :: breaks ++ cs) = literalRest indent true (b :: breaks ++ cs) := by
  simp only [literalRest, List.cons_append, printLines, hb, if_true]

theorem head?_literalRest_append (hne : cs ≠ []) (hhead : ∀ c ∈ cs.head?, isBreak c = false)
    (rest : List Char) : (literalRest indent false cs ++ rest).head? = cs.head? := by
  obtain ⟨c, cs, rfl⟩ := List.exists_cons_of_ne_nil hne
  rw [literalRest, printLines, if_neg (Bool.eq_false_iff.mp (hhead c rfl))]
  rfl

/-- A text is line breaks and a text that begins otherwise. -/
theorem exists_breaks_append (cs : List Char) : ∃ breaks rest, cs = breaks ++ rest
    ∧ (∀ c ∈ breaks, isBreak c = true) ∧ ∀ c ∈ rest.head?, isBreak c = false := by
  refine ⟨cs.takeWhile isBreak, cs.dropWhile isBreak, List.takeWhile_append_dropWhile.symm,
    fun c hc => List.mem_takeWhile_imp hc, fun c hc => ?_⟩
  have hhead := List.head?_dropWhile_not isBreak cs
  rw [Option.mem_def.mp hc] at hhead
  exact hhead

/-- A text that begins with a word has no line breaks before it. -/
theorem eq_nil_of_breaks {breaks rest : List Char} (hbreaks : ∀ c ∈ breaks, isBreak c = true)
    (hhead : ∀ c ∈ (breaks ++ rest).head?, isGap c = false) : breaks = [] := by
  cases breaks with
  | nil => rfl
  | cons b breaks =>
    have hb := hbreaks b List.mem_cons_self
    rw [isBreak_of_isGap (hhead b rfl)] at hb
    exact absurd hb Bool.false_ne_true

end

/-! ### Blocks -/

theorem isPrintable_of_allowsBlock {cs : List Char} (h : allowsBlock cs = true) :
    ∀ c ∈ cs, isPrintable c = true := by
  rw [allowsBlock, Bool.not_eq_true', Bool.or_eq_false_iff, needsEscapes_eq_false_iff] at h
  exact h.1.1

theorem ne_tab_of_isPrintable {c : Char} (h : isPrintable c = true) : c ≠ '\t' := by
  rintro rfl
  cases h

namespace Place

variable {p : Place} {indent column : Nat} {next cs : List Char}

/-- Past its lines a block ends. -/
theorem blockLines?_end {chomping : Chomping} {g : LineGap} (h : p.column ≠ indent) :
    p.blockLines? false chomping indent g = some (g.chomped chomping, p) := by
  rw [blockLines?, if_pos h]

/-- The lines of a text are read from the first one on. -/
theorem blockLines?_literal {g : LineGap} (hprintable : ∀ c ∈ cs, isPrintable c = true)
    (hne : cs ≠ []) (hhead : ∀ c ∈ cs.head?, isBreak c = false) (hleft : column < indent)
    (hnext : ∀ c ∈ next.head?, isGap c = false) (hcolumn : p.column = indent)
    (h : p.rest = literalRest indent false cs ++ (List.replicate column ' ' ++ next)) :
    ∃ q, p.blockLines? false (chompingOf cs) indent g
        = some (g.lastBreak ++ g.emptyBreaks ++ cs, q)
      ∧ q.column = column ∧ q.rest = next := by
  have hends := endsIndentation_of_lt hnext hleft
  have hout := startsLine_of_isGap hnext
  induction cs using words_induction isBreak generalizing p g with
  | word w hw =>
    have hlines : literalRest indent false (w ++ []) = _ := literalRest_line hw
    have hfeed : ∀ c ∈ ['\n'], isPrintable c = true ∧ isBreak c = true :=
      List.forall_mem_singleton.mpr ⟨rfl, rfl⟩
    rw [List.append_nil] at hlines
    rw [hlines, List.append_assoc] at h
    obtain ⟨q, led, hq, hrest, hread⟩ := blockLines?_line .strip g hw hne hfeed hends hout hcolumn h
    refine ⟨q, ?_, hq, hrest⟩
    rw [chompingOf_word hw hne, hread [] q (blockLines?_end (hq ▸ Nat.ne_of_lt hleft)),
      List.append_nil]
  | gap w breaks cs hw hbreaks hbne hhead' ih =>
    obtain ⟨b, breaks, rfl⟩ := List.exists_cons_of_ne_nil hbne
    have hwne : w ≠ [] := by
      rintro rfl
      exact Bool.eq_false_iff.mp (hhead b rfl) (hbreaks b List.mem_cons_self)
    have hprintables : ∀ c ∈ b :: breaks, isPrintable c = true ∧ isBreak c = true := fun c hc =>
      ⟨hprintable c (List.mem_append_right w (List.mem_append_left cs hc)), hbreaks c hc⟩
    have hmore := (List.forall_mem_cons.mp hbreaks).2
    rw [literalRest_line hw] at h
    cases cs with
    | nil =>
      -- the last line, with the breaks after it
      rw [List.append_nil, literalRest_breaks hbne hbreaks, List.append_assoc] at h
      obtain ⟨q, led, hq, hrest, hread⟩ := blockLines?_line (chompingOf (w ++ b :: breaks)) g hw
        hwne hprintables hends hout hcolumn h
      refine ⟨q, ?_, hq, hrest⟩
      have hend : q.blockLines? false (chompingOf (w ++ b :: breaks)) indent
          { lastBreak := [b], emptyBreaks := breaks, ledByBlank := led } = _ :=
        blockLines?_end (hq ▸ Nat.ne_of_lt hleft)
      rw [chomped_chompingOf hw hmore hwne (hbreaks b List.mem_cons_self)] at hend
      rw [List.append_nil, hread _ q hend]
    | cons c cs =>
      rw [literalRest_of_breaks_cons (hbreaks b List.mem_cons_self),
        literalRest_breaks_append hbreaks (List.cons_ne_nil c cs) hhead', List.append_assoc,
        List.append_assoc, List.append_assoc] at h
      have hprintable' : ∀ d ∈ c :: cs, isPrintable d = true := fun d hd =>
        hprintable d (List.mem_append_right w (List.mem_append_right _ hd))
      have hin : EndsIndentation indent indent
          (literalRest indent false (c :: cs) ++ (List.replicate column ' ' ++ next)) :=
        .inl ⟨rfl, Nat.ne_zero_of_lt hleft⟩
      have hstart : ∀ d ∈ (literalRest indent false (c :: cs)
          ++ (List.replicate column ' ' ++ next)).head?, d ≠ '\t' ∧ isBreak d = false := by
        intro d hd
        rw [head?_literalRest_append (List.cons_ne_nil c cs) hhead'] at hd
        obtain rfl : c = d := Option.some.inj hd
        exact ⟨ne_tab_of_isPrintable (hprintable' c List.mem_cons_self), hhead' c rfl⟩
      obtain ⟨q, led, hq, hrest, hread⟩ := blockLines?_line (chompingOf (c :: cs)) g hw hwne
        hprintables hin hstart hcolumn h
      obtain ⟨r, hr, hend⟩ := ih hprintable' (List.cons_ne_nil c cs) hhead' hq hrest
        (g := { lastBreak := [b], emptyBreaks := breaks, ledByBlank := led })
      refine ⟨r, ?_, hend⟩
      rw [← List.append_assoc w, chompingOf_append hhead' (List.cons_ne_nil c cs), hread _ r hr]
      simp only [List.append_assoc, List.cons_append, List.nil_append]

/-- After the indicator's line the block's column is found or known, and its text is read. -/
theorem readLines_literal {k : Nat} {given : Option Nat}
    (hgiven : given = some indent ∨ given = none ∧ ∀ c ∈ cs.head?, isGap c = false)
    (hindent : k + 1 < indent) (hprintable : ∀ c ∈ cs, isPrintable c = true) (hne : cs ≠ [])
    (hleft : column < indent) (hnext : ∀ c ∈ next.head?, isGap c = false) (hcolumn : p.column = 0)
    (h : p.rest = literalRest indent true cs ++ (List.replicate column ' ' ++ next)) :
    ∃ breaks deepest r q, p.blockGap? (given.getD 0) 0 [] = some (breaks, deepest, r)
      ∧ given.getD (max (max deepest (k + 1)) 1) = indent
      ∧ r.blockLines? false (chompingOf cs) indent { emptyBreaks := breaks } = some (cs, q)
      ∧ q.column = column ∧ q.rest = next := by
  obtain ⟨breaks, cs, rfl, hbreaks, hhead⟩ := exists_breaks_append cs
  have hprintables : ∀ c ∈ breaks, isPrintable c = true ∧ isBreak c = true := fun c hc =>
    ⟨hprintable c (List.mem_append_left cs hc), hbreaks c hc⟩
  have hends := endsIndentation_of_lt hnext hleft
  have hout := startsLine_of_isGap hnext
  by_cases hcs : cs = []
  · -- nothing but line breaks, so the column is known
    subst hcs
    rw [List.append_nil] at hne hgiven h ⊢
    obtain rfl : given = some indent := hgiven.resolve_right fun ⟨_, hgap⟩ =>
      hne (eq_nil_of_breaks hbreaks ((List.append_nil breaks).symm ▸ hgap))
    rw [literalRest_breaks hne hbreaks] at h
    obtain ⟨r, hr, hrest, hread⟩ := blockGap?_breaks 0 [] hprintables hends hout hcolumn h
    refine ⟨breaks, _, r, r, hread, rfl, ?_, hr, hrest⟩
    rw [chompingOf_breaks hbreaks hne, blockLines?_end (hr ▸ Nat.ne_of_lt hleft)]
    rfl
  · rw [literalRest_breaks_append hbreaks hcs hhead, List.append_assoc, List.append_assoc] at h
    have hprintable' : ∀ c ∈ cs, isPrintable c = true := fun c hc =>
      hprintable c (List.mem_append_right breaks hc)
    have hstart : (literalRest indent false cs ++ (List.replicate column ' ' ++ next)).head? = _ :=
      head?_literalRest_append hcs hhead _
    have hfound : EndsIndentation (given.getD 0) indent
        (literalRest indent false cs ++ (List.replicate column ' ' ++ next)) := by
      obtain rfl | ⟨rfl, hgap⟩ := hgiven
      · exact .inl ⟨rfl, by omega⟩
      · refine .inr ⟨.inl rfl, ?_⟩
        rw [eq_nil_of_breaks hbreaks hgap, List.nil_append] at hgap
        rw [hstart]
        exact fun hblank => absurd (hgap ' ' hblank) (by decide)
    have hline : ∀ c ∈ (literalRest indent false cs
        ++ (List.replicate column ' ' ++ next)).head?, c ≠ '\t' ∧ isBreak c = false := by
      rw [hstart]
      exact fun c hc => ⟨ne_tab_of_isPrintable (hprintable' c (List.mem_of_head? hc)), hhead c hc⟩
    obtain ⟨r, hr, hrest, hread⟩ := blockGap?_breaks 0 [] hprintables hfound hline hcolumn h
    obtain ⟨q, hq, hend⟩ := blockLines?_literal (g := { emptyBreaks := breaks }) hprintable' hcs
      hhead hleft hnext hr hrest
    refine ⟨breaks, _, r, q, hread, ?_, ?_, hend⟩
    · obtain rfl | ⟨rfl, -⟩ := hgiven
      · rfl
      · show max (max (max 0 indent) (k + 1)) 1 = indent
        omega
    · rw [chompingOf_append hhead hcs, hq]
      rfl

/-- The hints tell the chomping, and the column wherever a gap would hide it. -/
theorem blockHeader?_literalHints (hprintable : ∀ c ∈ cs, isPrintable c = true)
    (rest : List Char) :
    ∃ hint, blockHeader? (literalHints cs ++ '\n' :: rest)
        = some (chompingOf cs, hint, (literalHints cs).length)
      ∧ (hint = some 2 ∨ hint = none ∧ ∀ c ∈ cs.head?, isGap c = false) := by
  refine ⟨if cs.head?.any (fun c => c == ' ' || isBreak c) then some 2 else none, ?_, ?_⟩
  · rw [literalHints_eq]
    cases chompingOf cs <;> split_ifs <;> rfl
  · split_ifs with hhint
    · exact .inl rfl
    · rw [Bool.not_eq_true, Option.any_eq_false] at hhint
      refine .inr ⟨rfl, fun c hc => ?_⟩
      have hblank : isBlank c = (c == ' ') := by
        rw [Bool.eq_iff_iff, isBlank_iff (hprintable c (List.mem_of_head? hc)), beq_iff_eq]
      rw [isGap, hblank]
      exact hhint c hc

theorem endLine?_feed {rest : List Char} (h : p.rest = '\n' :: rest) :
    ∃ q, p.endLine? = some q ∧ q.column = 0 ∧ q.rest = rest := by
  have hblanks : p.skipWhile isBlank = p := by
    rw [skipWhile, h, List.takeWhile_cons_of_neg (by decide)]
    rfl
  have hcomment : p.skipComment = p := by
    rw [skipComment, isAt, h]
    rfl
  have hline : p.isAtLineEnd = true := by
    rw [isAtLineEnd, h]
    rfl
  refine ⟨p.skipBreak, ?_, skipBreak_break rfl rfl h⟩
  rw [endLine?]
  simp only [hblanks, hcomment, hline, if_true]

/-- A text is read back from a literal block. -/
theorem readBlock?_literal {k : Nat} (hallowed : allowsBlock cs = true) (hne : cs ≠ [])
    (hleft : column ≤ k) (hnext : ∀ c ∈ next.head?, isGap c = false)
    (h : p.rest = '|' :: (literalHints cs
      ++ '\n' :: (literalRest (k + 2) true cs ++ (List.replicate column ' ' ++ next)))) :
    ∃ q, p.readBlock? false k = some (cs, q) ∧ q.column = column ∧ q.rest = next := by
  have hprintable := isPrintable_of_allowsBlock hallowed
  obtain ⟨hint, hheader, hhint⟩ := blockHeader?_literalHints hprintable
    (literalRest (k + 2) true cs ++ (List.replicate column ' ' ++ next))
  have hhints : (p.skip ((literalHints cs).length + 1)).rest
      = '\n' :: (literalRest (k + 2) true cs ++ (List.replicate column ' ' ++ next)) := by
    rw [← List.cons_append] at h
    exact rest_skip h
  obtain ⟨q, hq, hcolumn, hrest⟩ := endLine?_feed hhints
  have hgiven : hint.map (fun n => if 0 ≤ (k : Int) then (k : Int).toNat + n else n) = some (k + 2)
      ∨ hint.map (fun n => if 0 ≤ (k : Int) then (k : Int).toNat + n else n) = none
        ∧ ∀ c ∈ cs.head?, isGap c = false := by
    obtain rfl | ⟨rfl, hgap⟩ := hhint
    · left
      simp
    · exact .inr ⟨rfl, hgap⟩
  obtain ⟨breaks, deepest, r, s, hgap, hindent, hlines, hend⟩ := readLines_literal hgiven
    (Nat.lt_succ_self (k + 1)) hprintable hne (by omega) hnext hcolumn hrest
  have hparent : ((k : Int) + 1).toNat = k + 1 := rfl
  refine ⟨s, ?_, hend⟩
  rw [readBlock?, h, List.drop_one, List.tail_cons, hheader]
  simp only [Option.bind_eq_bind, Option.bind_some, hq, hgap, hparent, hindent, hlines]

end Place

end ShopTables.Yaml
