import ShopTables.Proofs.Yaml.Blocks
import ShopTables.Proofs.Yaml.Literal
import ShopTables.Proofs.Yaml.Quoted

/-!
# Written values are read as their tokens

What follows the colon of a key is a value if the lexer finds its tokens there and comes to the
lines after it (`IsValue`). In each of the styles a text that may be written so is such a value, and
so is every text in the style that is chosen for it (`isValue_printScalar`).
-/

namespace ShopTables.Yaml

/-- Are these the tokens of what is written after a key in a block of the indentation `indent`? -/
structure IsValue (indent : Nat) (written : List Char) (ts : List Token) : Prop where
  starts : written ≠ [] ∧ endsWord written = true
  allowed : ∀ c ∈ written, isAllowed c = true
  run : ∀ {b : Blocks} {p : Place} {lines : List Char}, b.indent = indent → indent < p.column →
    BeginsWithName lines → margin lines ≤ indent → p.rest = written ++ lines →
    ∃ (q : Place) (keyAllowed : Bool), q.Precedes keyAllowed lines
      ∧ (b.lexer p false).run? = ((b.add ts).lexer q keyAllowed).run?

/-! ### What is written may stand in a text -/

theorem isAllowed_feed : ∀ c ∈ ['\n'], isAllowed c = true := List.forall_mem_singleton.mpr rfl

theorem isAllowed_hexDigits {width n : Nat} : ∀ c ∈ hexDigits width n, isAllowed c = true := by
  have hall : ∀ d < 16, isAllowed (hexDigit d) = true := by decide
  induction width generalizing n with
  | zero => exact List.forall_mem_nil _
  | succ width ih =>
    rw [hexDigits, List.forall_mem_append, List.forall_mem_singleton]
    exact ⟨ih, hall _ (Nat.mod_lt n (by decide))⟩

theorem isAllowed_escapeOf (c : Char) : ∀ d ∈ escapeOf c, isAllowed d = true := by
  unfold escapeOf
  split
  all_goals try exact List.forall_mem_singleton.mpr rfl
  split_ifs
  all_goals exact List.forall_mem_cons.mpr ⟨rfl, isAllowed_hexDigits⟩

theorem isAllowed_printEscaped (c : Char) : ∀ d ∈ printEscaped c, isAllowed d = true := by
  unfold printEscaped
  split_ifs with hescaped
  · exact List.forall_mem_cons.mpr ⟨rfl, isAllowed_escapeOf c⟩
  · simp only [Bool.or_eq_true, Bool.not_eq_true', not_or, Bool.not_eq_false] at hescaped
    exact List.forall_mem_singleton.mpr (isAllowed_of_isPrintable hescaped.1.1.1)

theorem isAllowed_printLines {indent : Nat} {encode : Char → List Char} {atStart : Bool}
    {cs : List Char} (hcs : ∀ c ∈ cs, isAllowed c = true)
    (hencode : ∀ c ∈ cs, ∀ d ∈ encode c, isAllowed d = true) :
    ∀ c ∈ printLines indent encode atStart cs, isAllowed c = true := by
  induction cs generalizing atStart with
  | nil => exact List.forall_mem_nil _
  | cons c cs ih =>
    obtain ⟨hc, hcs⟩ := List.forall_mem_cons.mp hcs
    obtain ⟨hencodec, hencode⟩ := List.forall_mem_cons.mp hencode
    rw [printLines]
    split_ifs
    · exact List.forall_mem_cons.mpr ⟨hc, ih hcs hencode⟩
    · rw [List.forall_mem_append, List.forall_mem_append]
      refine ⟨⟨fun d hd => ?_, hencodec⟩, ih hcs hencode⟩
      rw [List.eq_of_mem_replicate hd]
      rfl
    · rw [List.nil_append, List.forall_mem_append]
      exact ⟨hencodec, ih hcs hencode⟩

theorem isAllowed_printDoubleQuoted (cs : List Char) :
    ∀ c ∈ printDoubleQuoted cs, isAllowed c = true := by
  rw [printDoubleQuoted, List.cons_append, List.forall_mem_cons, List.forall_mem_append,
    List.forall_mem_singleton]
  refine ⟨rfl, fun c hc => ?_, rfl⟩
  obtain ⟨d, -, hc⟩ := List.mem_flatMap.mp hc
  exact isAllowed_printEscaped d c hc

section

variable {indent : Nat} {cs : List Char} (hcs : ∀ c ∈ cs, isPrintable c = true)

include hcs

theorem isAllowed_printSingleQuoted : ∀ c ∈ printSingleQuoted indent cs, isAllowed c = true := by
  have hallowed : ∀ c ∈ cs, isAllowed c = true := fun c hc => isAllowed_of_isPrintable (hcs c hc)
  have hdoubled : ∀ c ∈ cs, ∀ d ∈ doubleQuote c, isAllowed d = true := by
    intro c hc d hd
    unfold doubleQuote at hd
    split_ifs at hd
    · obtain rfl : d = '\'' := by simpa using hd
      rfl
    · rw [List.mem_singleton.mp hd]
      exact hallowed c hc
  rw [printSingleQuoted_eq, singleQuotedRest, List.forall_mem_cons, List.forall_mem_append,
    List.forall_mem_append, List.forall_mem_singleton]
  refine ⟨rfl, ⟨isAllowed_printLines hallowed hdoubled, ?_⟩, rfl⟩
  split_ifs
  · intro c hc
    rw [List.eq_of_mem_replicate hc]
    rfl
  · exact List.forall_mem_nil _

theorem isAllowed_printLiteral : ∀ c ∈ printLiteral indent cs, isAllowed c = true := by
  have hallowed : ∀ c ∈ cs, isAllowed c = true := fun c hc => isAllowed_of_isPrintable (hcs c hc)
  have hhints : (literalHints cs).all isAllowed = true := by
    rw [literalHints_eq]
    cases chompingOf cs <;> split_ifs <;> rfl
  rw [printLiteral, List.cons_append, List.forall_mem_cons, List.forall_mem_append,
    List.forall_mem_cons]
  exact ⟨rfl, List.all_eq_true.mp hhints, rfl, isAllowed_printLines hallowed
    fun c hc => List.forall_mem_singleton.mpr (hallowed c hc)⟩

end

/-! ### Which kind of token -/

theorem endsWord_append {cs rest : List Char} (h : endsWord cs = false) :
    endsWord (cs ++ rest) = false := by
  cases cs with
  | nil => cases h
  | cons c cs => exact h

theorem startsPlain_of_beginsPlainly {c : Char} {cs rest : List Char} (h : BeginsPlainly c cs) :
    Lexer.startsPlain false (c :: cs ++ rest) = true := by
  have hgap : (isBlank c || isBreak c) = false := h.word
  by_cases hc : c = '-' ∨ c = '?' ∨ c = ':'
  · have hends : endsWord (cs ++ rest) = false := endsWord_append (h.mark hc)
    rw [List.cons_append]
    generalize cs ++ rest = text at hends
    have hblank : text.head?.any isBlank = false := by
      cases text with
      | nil => rfl
      | cons d ds => exact (Bool.or_eq_false_iff.mp hends).1
    obtain rfl | rfl | rfl := hc <;> simp [Lexer.startsPlain, hends, hblank]
  · have hindicator : Lexer.indicators.contains c = false := by
      rw [← Bool.not_eq_true, List.contains_iff_mem]
      have hnone := h.indicator
      simp only [Lexer.indicators, leadingIndicators, List.mem_cons, not_or] at hc hnone ⊢
      tauto
    rw [List.cons_append, Lexer.startsPlain, hgap, hindicator]
    rfl

theorem isTokenStart_of_beginsPlainly {c : Char} {cs : List Char} (h : BeginsPlainly c cs) :
    isTokenStart c = true := by
  have hcomment : c ≠ '#' := by
    rintro rfl
    exact h.indicator List.mem_cons_self
  have hmark : c ≠ '\uFEFF' := by
    rintro rfl
    exact absurd h.printable (by decide)
  simp [isTokenStart, h.word, hcomment, hmark]

namespace Blocks

variable {b : Blocks} {p q : Place} {keyAllowed : Bool}

/-- A scalar that follows a blank is read. -/
theorem run?_scalar {t : Token} {c : Char} {text : List Char} (hindent : b.indent < p.column)
    (hc : isTokenStart c = true) (h : p.rest = ' ' :: c :: text)
    (htoken : (b.lexer (p.skip 1) false).token? = some ((b.add [t]).lexer q keyAllowed))
    (hshorter : q.rest.length < p.rest.length) :
    (b.lexer p false).run? = ((b.add [t]).lexer q keyAllowed).run? := by
  have hskip : p.skipToToken false false = (p.skip 1, false) := by
    have hstart : ∀ d ∈ (c :: text).head?, isTokenStart d = true := by
      rintro d ⟨⟩
      exact hc
    exact Place.skipToToken_line hstart (n := 1) h
  have hadvance := advance?_lexer (b := b) (k := none) hskip rfl
  have hinside : b.indent ≤ (p.skip 1).column := by
    simp only [Place.skip]
    omega
  rw [closeTo_of_le hinside] at hadvance
  have hne : (p.skip 1).rest ≠ [] := by
    rw [Place.rest_skip_one h]
    exact List.cons_ne_nil c text
  exact Lexer.run?_step hadvance hne htoken hshorter

section

variable (hcolumn : p.column ≠ 0) {cs text : List Char}

include hcolumn

/-- Within a line the marks of a document are none. -/
theorem isAtMark_of_column (c : Char) : p.isAtMark c = false := by
  rw [Place.isAtMark, beq_eq_false_iff_ne.mpr hcolumn]
  rfl

/-- A text between quotes is read. -/
theorem token?_quoted {quote : Char} {style : ScalarStyle}
    (hquote : quote = '\'' ∧ style = .singleQuoted ∨ quote = '"' ∧ style = .doubleQuoted)
    (h : p.rest = quote :: text) (hread : p.readQuoted? quote = some (cs, q)) :
    (b.lexer p false).token? = some ((b.add [.scalar style cs]).lexer q false) := by
  have hat := Place.isAt_cons h
  have hmark := isAtMark_of_column hcolumn
  obtain ⟨rfl, rfl⟩ | ⟨rfl, rfl⟩ := hquote <;>
    simp [Lexer.token?, lexer, hat, hmark, Lexer.quoted?, Lexer.nodeStart?, Lexer.keepCandidate?,
      hread, Lexer.allowKey, Lexer.add, add]

theorem token?_literal (h : p.rest = '|' :: text)
    (hread : p.readBlock? false b.indent = some (cs, q)) :
    (b.lexer p false).token? = some ((b.add [.scalar .literal cs]).lexer q true) := by
  have hat := Place.isAt_cons h
  have hmark := isAtMark_of_column hcolumn
  simp [Lexer.token?, lexer, hat, hmark, Lexer.inFlow, Lexer.block?, Lexer.dropCandidate?, hread,
    Lexer.allowKey, Lexer.add, add]

/-- A text that may be written plainly begins as no other token does. -/
theorem token?_plain {broken : Bool} {c : Char} (hbegins : BeginsPlainly c cs)
    (h : p.rest = c :: cs ++ text)
    (hread : p.readPlain? false b.indent = some (c :: cs, broken, q)) :
    (b.lexer p false).token? = some ((b.add [.scalar .plain (c :: cs)]).lexer q broken) := by
  have hat := Place.isAt_cons (h.trans (List.cons_append ..))
  have hmark := isAtMark_of_column hcolumn
  have hindicator : ∀ d ∈ leadingIndicators, ¬ c = d := by
    rintro d hd rfl
    exact hbegins.indicator hd
  simp only [leadingIndicators, List.forall_mem_cons] at hindicator
  have hplain : Lexer.startsPlain false p.rest = true := h ▸ startsPlain_of_beginsPlainly hbegins
  have htoken : (b.lexer p false).token? = (b.lexer p false).plain? := by
    by_cases hc : c = '-' ∨ c = '?' ∨ c = ':'
    · have hends : endsWord p.rest.tail = false := by
        rw [h]
        exact endsWord_append (hbegins.mark hc)
      simp [Lexer.token?, lexer, hat, hmark, hindicator, Lexer.inFlow, hplain, hends]
    · rw [not_or, not_or] at hc
      simp [Lexer.token?, lexer, hat, hmark, hindicator, Lexer.inFlow, hplain, hc]
  rw [htoken]
  simp [Lexer.plain?, lexer, Lexer.keepCandidate?, Lexer.inFlow, hread, Lexer.allowKey, Lexer.add,
    add]

end

end Blocks

/-! ### Scalars -/

variable {k : Nat} {cs : List Char}

/-- A scalar is a value if its token is found and the lines after it are reached. -/
theorem isValue_scalar {t : Token} {written : List Char}
    (hstart : ∃ c text, written = c :: text ∧ isTokenStart c = true)
    (hallowed : ∀ c ∈ written, isAllowed c = true)
    (hread : ∀ {b : Blocks} {p : Place} {lines : List Char}, b.indent = k → k < p.column →
      BeginsWithName lines → margin lines ≤ k → p.rest = written ++ lines →
      ∃ (q : Place) (keyAllowed : Bool), q.Precedes keyAllowed lines
        ∧ q.rest <:+ p.rest
        ∧ (b.lexer p false).token? = some ((b.add [t]).lexer q keyAllowed)) :
    IsValue k (' ' :: written) [t] where
  starts := ⟨List.cons_ne_nil _ _, rfl⟩
  allowed := List.forall_mem_cons.mpr ⟨rfl, hallowed⟩
  run {b p lines} hindent hcolumn hname hmargin h := by
    obtain ⟨c, text, rfl, hc⟩ := hstart
    have hnext : (p.skip 1).rest = c :: text ++ lines := Place.rest_skip_one h
    obtain ⟨q, keyAllowed, hprecedes, hsuffix, htoken⟩ := hread hindent (Nat.lt_succ_of_lt hcolumn)
      hname hmargin hnext
    refine ⟨q, keyAllowed, hprecedes, Blocks.run?_scalar (by omega) hc h htoken ?_⟩
    refine Nat.lt_of_le_of_lt hsuffix.length_le ?_
    rw [hnext, h]
    exact Nat.lt_succ_self _

theorem isValue_double :
    IsValue k (' ' :: (printDoubleQuoted cs ++ ['\n'])) [.scalar .doubleQuoted cs] := by
  refine isValue_scalar ⟨_, _, rfl, rfl⟩
    (List.forall_mem_append.mpr ⟨isAllowed_printDoubleQuoted cs, isAllowed_feed⟩)
    fun {b p lines} hindent hcolumn hname hmargin h => ?_
  rw [List.append_assoc] at h
  obtain ⟨q, hread, hrest⟩ := Place.readQuoted?_double h
  refine ⟨q, false, Place.precedes_of_feed hname hrest, ?_,
    Blocks.token?_quoted (Nat.ne_zero_of_lt hcolumn) (.inr ⟨rfl, rfl⟩) h hread⟩
  rw [hrest, h]
  exact List.suffix_append _ _

theorem isValue_single (hallowed : allowsSingleQuotes cs = true) (hfeed : '\n' ∉ cs) :
    IsValue k (' ' :: (printSingleQuoted (k + 2) cs ++ ['\n'])) [.scalar .singleQuoted cs] := by
  have hprintable := (allowsSingleQuotes_iff.mp hallowed).1
  refine isValue_scalar ⟨_, _, rfl, rfl⟩
    (List.forall_mem_append.mpr ⟨isAllowed_printSingleQuoted hprintable, isAllowed_feed⟩)
    fun {b p lines} hindent hcolumn hname hmargin h => ?_
  rw [List.append_assoc] at h
  obtain ⟨q, hread, hrest⟩ := Place.readQuoted?_single (Nat.succ_ne_zero _) hallowed hfeed
    (by simp) h
  refine ⟨q, false, Place.precedes_of_feed hname hrest, ?_,
    Blocks.token?_quoted (Nat.ne_zero_of_lt hcolumn) (.inl ⟨rfl, rfl⟩) h hread⟩
  rw [hrest, h]
  exact List.suffix_append _ _

theorem isValue_plain (hplain : allowsPlain cs = true) (hne : cs ≠ []) :
    IsValue k (' ' :: (cs ++ ['\n'])) [.scalar .plain cs] := by
  obtain ⟨c, cs, rfl⟩ := List.exists_cons_of_ne_nil hne
  have hbegins := beginsPlainly_of_allowsPlain hplain
  have hprintable := isPrintable_of_allowsPlain hplain
  refine isValue_scalar ⟨c, _, rfl, isTokenStart_of_beginsPlainly hbegins⟩
    (List.forall_mem_append.mpr
      ⟨fun d hd => isAllowed_of_isPrintable (hprintable d hd), isAllowed_feed⟩)
    fun {b p lines} hindent hcolumn hname hmargin h => ?_
  have hlines : p.rest = c :: cs ++ '\n' :: lines := h.trans (List.append_assoc (c :: cs) _ _)
  have hline := hlines
  rw [← replicate_margin lines] at hline
  obtain ⟨q, hread, hcol, hrest⟩ := Place.readPlain?_line hplain hne hcolumn hmargin
    (fun c hc => isGap_of_isNameChar (hname c hc)) hline
  refine ⟨q, true, Place.precedes_of_column hname hcol hrest, ?_,
    Blocks.token?_plain (Nat.ne_zero_of_lt hcolumn) hbegins hlines (hindent ▸ hread)⟩
  rw [hrest, h]
  exact (List.dropWhile_suffix _).trans (List.suffix_append _ _)

theorem isValue_literal (hallowed : allowsBlock cs = true) (hne : cs ≠ []) :
    IsValue k (' ' :: (printLiteral (k + 2) cs ++ if cs.getLast?.any isBreak then [] else ['\n']))
      [.scalar .literal cs] := by
  have hend : ∀ c ∈ (if cs.getLast?.any isBreak then [] else ['\n']), isAllowed c = true := by
    split_ifs
    · exact List.forall_mem_nil _
    · exact isAllowed_feed
  refine isValue_scalar ⟨_, _, rfl, rfl⟩ (List.forall_mem_append.mpr
    ⟨isAllowed_printLiteral (isPrintable_of_allowsBlock hallowed), hend⟩)
    fun {b p lines} hindent hcolumn hname hmargin h => ?_
  have hlines : p.rest = '|' :: (literalHints cs ++ '\n' :: (literalRest (k + 2) true cs
      ++ lines)) := by
    rw [h, printLiteral, literalRest]
    simp only [List.cons_append, List.append_assoc]
  have hline := hlines
  rw [← replicate_margin lines] at hline
  obtain ⟨q, hread, hcol, hrest⟩ := Place.readBlock?_literal hallowed hne hmargin
    (fun c hc => isGap_of_isNameChar (hname c hc)) hline
  refine ⟨q, true, Place.precedes_of_column hname hcol hrest, ?_,
    Blocks.token?_literal (Nat.ne_zero_of_lt hcolumn) hlines (hindent ▸ hread)⟩
  rw [hrest, h]
  exact (List.dropWhile_suffix _).trans (List.suffix_append _ _)

/-- Every text is read back from the style that is chosen for it. -/
theorem isValue_printScalar (k : Nat) (cs : List Char) :
    IsValue k (' ' :: printScalar (k + 2) cs) [.scalar (styleOf cs) cs] := by
  rw [printScalar, styleOf]
  by_cases hfeed : cs.contains '\n' = true
  · rw [if_pos hfeed]
    have hne : cs ≠ [] := List.ne_nil_of_mem (List.contains_iff_mem.mp hfeed)
    by_cases hblock : allowsBlock cs = true
    · rw [if_pos hblock]
      exact isValue_literal hblock hne
    · rw [if_neg hblock]
      exact isValue_double
  · rw [if_neg hfeed]
    by_cases hplain : (!isAmbiguous cs && allowsPlain cs) = true
    · rw [if_pos hplain]
      rw [Bool.and_eq_true, Bool.not_eq_true'] at hplain
      refine isValue_plain hplain.2 ?_
      -- an empty text would be taken for nothing
      rintro rfl
      exact absurd hplain.1 (by decide)
    · rw [if_neg hplain]
      by_cases hsingle : allowsSingleQuotes cs = true
      · rw [if_pos hsingle]
        exact isValue_single hsingle (mt List.contains_iff_mem.mpr hfeed)
      · rw [if_neg hsingle]
        exact isValue_double

end ShopTables.Yaml
