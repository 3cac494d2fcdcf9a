import Mathlib.Tactic.Ring
import ShopTables.Proofs.Yaml.Words

/-!
# Quoted scalars are read back

Between quotes a text is read word by word. How the characters of a word are written differs, but
each is read back as itself (`Place.Spells`), and so is a word (`Place.quotedWord?_word`). In double
quotes everything but a printable character is escaped, so all gaps are blanks
(`Place.readQuoted?_double`). In single quotes line breaks stay, and the line after them is
indented; since no blank stands next to a line break, a gap is either all blanks or all breaks
(`Place.readQuoted?_single`).
-/

namespace ShopTables.Yaml

namespace Place

variable {quote : Char} {p : Place} {rest : List Char}

/-! ### Words -/

/-- Does a word between quotes end here? At a gap, or at the closing quote. -/
def EndsQuotedWord (quote : Char) (rest : List Char) : Prop :=
  (∃ c cs, rest = c :: cs ∧ isGap c = true)
    ∨ ∃ cs, rest = quote :: cs ∧ (quote = '\'' → cs.head? ≠ some '\'')

/-- How a word goes on after its first character. -/
theorem quotedWord?_cons {c : Char} {cs : List Char} (h : p.rest = c :: cs) :
    p.quotedWord? quote
      = if isGap c then some ([], false, p)
        else if quote == '\'' && c == '\'' && cs.head? == some '\'' then
          ((p.skip 2).quotedWord? quote).map fun (word, r) => ('\'' :: word, r)
        else if c == quote then some ([], false, p)
        else if quote == '"' && c == '\\' then
          if cs.head?.any isBreak then some ([], true, (p.skip 1).skipBreak)
          else
            match escape? cs with
            | none => none
            | some (e, n) =>
              ((p.skip (n + 1)).quotedWord? quote).map fun (word, r) => (e :: word, r)
        else ((p.skip 1).quotedWord? quote).map fun (word, r) => (c :: word, r) := by
  rw [quotedWord?]
  split
  · rename_i h'
    rw [h] at h'
    cases h'
  · rename_i h'
    rw [h] at h'
    cases h'
    rfl

theorem quotedWord?_end (hquote : isGap quote = false) (h : EndsQuotedWord quote p.rest) :
    p.quotedWord? quote = some ([], false, p) := by
  obtain ⟨c, cs, hrest, hgap⟩ | ⟨cs, hrest, hsingle⟩ := h
  · rw [quotedWord?_cons hrest, if_pos hgap]
  · have hclosing : ¬ (quote == '\'' && quote == '\'' && cs.head? == some '\'') = true := by
      simpa using hsingle
    rw [quotedWord?_cons hrest, hquote, if_neg Bool.false_ne_true, if_neg hclosing,
      if_pos (beq_self_eq_true quote)]

/-- Does a quoted word that begins as is written go on with a character, and then with what
follows? -/
def Spells (quote c : Char) (written : List Char) : Prop :=
  ∀ (p : Place) (rest : List Char), p.rest = written ++ rest → p.quotedWord? quote
    = ((p.skip written.length).quotedWord? quote).map fun (word, r) => (c :: word, r)

/-- A word whose characters are spelled is read. -/
theorem quotedWord?_word {write : Char → List Char} {w : List Char} (hquote : isGap quote = false)
    (hw : ∀ c ∈ w, Spells quote c (write c)) (hend : EndsQuotedWord quote rest)
    (h : p.rest = w.flatMap write ++ rest) :
    p.quotedWord? quote = some (w, false, p.skip (w.flatMap write).length) := by
  induction w generalizing p with
  | nil =>
    rw [List.flatMap_nil, List.nil_append] at h
    exact quotedWord?_end hquote (h ▸ hend)
  | cons c w ih =>
    rw [List.flatMap_cons, List.append_assoc] at h
    rw [hw c List.mem_cons_self p _ h,
      ih (fun d hd => hw d (List.mem_cons_of_mem _ hd)) (rest_skip h), skip_skip,
      List.flatMap_cons, List.length_append]
    rfl

/-- A character that stands for itself. -/
theorem spells_self {c : Char} (hgap : isGap c = false) (hquote : c ≠ quote)
    (hescape : quote = '"' → c ≠ '\\') : Spells quote c [c] := by
  intro p rest h
  have hdoubled : ¬ (quote == '\'' && c == '\'' && rest.head? == some '\'') = true := by
    simp only [Bool.and_eq_true, beq_iff_eq, not_and]
    rintro ⟨rfl, rfl⟩
    exact absurd rfl hquote
  have hrest : p.rest = c :: rest := h
  rw [quotedWord?_cons hrest, hgap, if_neg Bool.false_ne_true, if_neg hdoubled,
    if_neg (by simpa using hquote), if_neg (by simpa using hescape)]
  rfl

/-- In single quotes, two of them stand for one. -/
theorem spells_doubled : Spells '\'' '\'' ['\'', '\''] := fun _ _ h => quotedWord?_cons h

/-- In double quotes, an escape stands for its character. -/
theorem spells_escaped {c e : Char} {escape : List Char} (hbreak : isBreak e = false)
    (hread : ∀ rest, escape? (e :: escape ++ rest) = some (c, escape.length + 1)) :
    Spells '"' c ('\\' :: e :: escape) := by
  intro p rest h
  have hline : ¬ ((e :: escape ++ rest).head?.any isBreak) = true := by
    rw [List.cons_append, List.head?_cons, Option.any_some, hbreak]
    exact Bool.false_ne_true
  have hrest : p.rest = '\\' :: (e :: escape ++ rest) := h
  rw [quotedWord?_cons hrest, if_neg (by decide), if_neg (by simp), if_neg (by decide),
    if_pos (by decide), if_neg hline, hread]
  rfl

/-! ### Words and gaps -/

/-- The closing quote ends a scalar. -/
theorem quotedFrom?_close {w : List Char} {q : Place} (hcolumn : p.column ≠ 0)
    (hne : p.rest ≠ []) (hword : p.quotedWord? quote = some (w, false, q))
    (hq : q.rest = quote :: rest) : p.quotedFrom? quote = some (w, q.skip 1) := by
  have hat : q.isAt quote = true := by simp [isAt, hq]
  rw [quotedFrom?, isAtDocumentMark_of_column hcolumn, hword]
  simp [hne, hat]

/-- After a gap a scalar goes on. -/
theorem quotedFrom?_gap {w more : List Char} {q r s : Place} {g : Gap} (hcolumn : p.column ≠ 0)
    (hword : p.quotedWord? quote = some (w, false, q)) (hq : q.isAt quote = false)
    (hgap : q.readGap? 0 {} = some (g, r)) (hshorter : r.rest.length < p.rest.length)
    (hmore : r.quotedFrom? quote = some (more, s)) :
    p.quotedFrom? quote = some (w ++ (g.text ++ more), s) := by
  have hne : p.rest.isEmpty = false := by
    rw [List.isEmpty_eq_false_iff]
    exact List.ne_nil_of_length_pos (Nat.zero_lt_of_lt hshorter)
  rw [quotedFrom?, isAtDocumentMark_of_column hcolumn, hne, hword, ← List.append_assoc]
  simp [hq, hgap, hshorter, hmore]

section

variable {write : Char → List Char} {w : List Char} (hquote : isGap quote = false)
  (hw : ∀ c ∈ w, Spells quote c (write c)) (hcolumn : p.column ≠ 0)

include hquote hw hcolumn

/-- The last word. -/
theorem quotedFrom?_word (hsingle : quote = '\'' → rest.head? ≠ some '\'')
    (h : p.rest = w.flatMap write ++ quote :: rest) :
    ∃ q, p.quotedFrom? quote = some (w, q) ∧ q.rest = rest := by
  have hword := quotedWord?_word hquote hw (.inr ⟨rest, rfl, hsingle⟩) h
  have hrest := rest_skip h
  exact ⟨_, quotedFrom?_close hcolumn (by simp [h]) hword hrest, rest_skip_one hrest⟩

/-- A word before a gap that is read. -/
theorem quotedFrom?_word_gap {c : Char} {gap : List Char} {g : Gap} {r : Place}
    (hc : isGap c = true) (hgap : (p.skip (w.flatMap write).length).readGap? 0 {} = some (g, r))
    (hrest : r.rest = rest) (h : p.rest = w.flatMap write ++ (c :: gap ++ rest)) :
    ∀ more s, r.quotedFrom? quote = some (more, s) →
      p.quotedFrom? quote = some (w ++ (g.text ++ more), s) := by
  intro more s hmore
  have hword := quotedWord?_word hquote hw (.inl ⟨c, _, rfl, hc⟩) h
  have hat : (p.skip (w.flatMap write).length).isAt quote = false := by
    have hne : c ≠ quote := ne_of_kind hc hquote
    rw [isAt, rest_skip h]
    simpa using hne
  refine quotedFrom?_gap hcolumn hword hat hgap ?_ hmore
  rw [hrest, h]
  simp only [List.length_append, List.length_cons]
  omega

/-- A word before blanks. -/
theorem quotedFrom?_blanks {n : Nat} (hn : n ≠ 0) (hnext : ∀ c ∈ rest.head?, isGap c = false)
    (h : p.rest = w.flatMap write ++ (List.replicate n ' ' ++ rest)) :
    ∃ r : Place, r.column ≠ 0 ∧ r.rest = rest ∧ ∀ more s, r.quotedFrom? quote = some (more, s) →
      p.quotedFrom? quote = some (w ++ (List.replicate n ' ' ++ more), s) := by
  obtain ⟨n, rfl⟩ := Nat.exists_eq_succ_of_ne_zero hn
  have hread := readGap?_blanks 0 (rest_skip h) hnext
  have hrest : ((p.skip (w.flatMap write).length).skip (n + 1)).rest = rest :=
      rest_skip_blanks (rest_skip h)
  refine ⟨_, Nat.succ_ne_zero _, hrest, ?_⟩
  exact quotedFrom?_word_gap hquote hw hcolumn (c := ' ') rfl hread hrest h

/-- A word before line breaks. -/
theorem quotedFrom?_breaks {b : Char} {breaks : List Char} {n : Nat} (hn : n ≠ 0)
    (hbreaks : ∀ c ∈ b :: breaks, isPrintable c = true ∧ isBreak c = true) (hb : b ≠ '\n')
    (hnext : ∀ c ∈ rest.head?, isGap c = false)
    (h : p.rest = w.flatMap write ++ (b :: breaks ++ (List.replicate n ' ' ++ rest))) :
    ∃ r : Place, r.column ≠ 0 ∧ r.rest = rest ∧ ∀ more s, r.quotedFrom? quote = some (more, s) →
      p.quotedFrom? quote = some (w ++ (b :: breaks ++ more), s) := by
  obtain ⟨r, hcolumn', hrest, hread⟩ := readGap?_breaks 0 hbreaks (rest_skip h) hnext
  refine ⟨r, hcolumn' ▸ hn, hrest, ?_⟩
  have hgap : isGap b = true := by rw [isGap, (hbreaks b List.mem_cons_self).2, Bool.or_true]
  have htext : Gap.text { broken := true, first := [b], more := breaks } = b :: breaks := by
    simp [Gap.text, hb]
  rw [← List.append_assoc (b :: breaks)] at h
  simpa only [htext] using quotedFrom?_word_gap hquote hw hcolumn hgap hread hrest h

end

end Place

/-! ### Escapes -/

theorem hexValue?_hexDigit {d : Nat} (h : d < 16) : hexValue? (hexDigit d) = some d := by
  have hall : ∀ d < 16, hexValue? (hexDigit d) = some d := by decide
  exact hall d h

/-- Hexadecimal digits are read as their number, and reading goes on after them. -/
theorem hexNumber?_hexDigits (width more n value : Nat) (rest : List Char) :
    hexNumber? (width + more) value (hexDigits width n ++ rest)
      = hexNumber? more (value * 16 ^ width + n % 16 ^ width) rest := by
  induction width generalizing more n rest with
  | zero => simp [hexDigits, Nat.mod_one]
  | succ width ih =>
    have hread : hexNumber? (more + 1) (value * 16 ^ width + n / 16 % 16 ^ width)
        (hexDigit (n % 16) :: rest)
          = hexNumber? more ((value * 16 ^ width + n / 16 % 16 ^ width) * 16 + n % 16) rest := by
      rw [hexNumber?, hexValue?_hexDigit (Nat.mod_lt n (by decide)), Option.bind_some]
    have hsum : (value * 16 ^ width + n / 16 % 16 ^ width) * 16 + n % 16
        = value * 16 ^ (width + 1) + n % 16 ^ (width + 1) := by
      rw [Nat.pow_succ, Nat.mul_comm (16 ^ width) 16, Nat.mod_mul]
      ring
    rw [hexDigits, List.append_assoc, Nat.add_assoc, Nat.add_comm 1 more, ih, List.singleton_append,
      hread, hsum]

theorem length_hexDigits (width n : Nat) : (hexDigits width n).length = width := by
  induction width generalizing n with
  | zero => rfl
  | succ width ih => rw [hexDigits, List.length_append, ih, List.length_singleton]

theorem charOf?_toNat (c : Char) : charOf? c.toNat = some c := by
  have hvalid : c.toNat.isValidChar := c.valid
  rw [charOf?, if_pos hvalid, Char.ofNat_toNat]

/-- A numeric escape stands for the character with its number. -/
theorem escape?_hexDigits {mark : Char} {width : Nat} {c : Char} (rest : List Char)
    (hmark : escapeDigits? mark = some width) (hfits : c.toNat < 16 ^ width) :
    escape? (mark :: hexDigits width c.toNat ++ rest)
      = some (c, (hexDigits width c.toNat).length + 1) := by
  have hread := hexNumber?_hexDigits width 0 c.toNat 0 rest
  rw [Nat.add_zero, Nat.zero_mul, Nat.zero_add, Nat.mod_eq_of_lt hfits] at hread
  rw [List.cons_append, escape?, hmark]
  dsimp only
  rw [hread, length_hexDigits]
  show (charOf? c.toNat).bind _ = _
  rw [charOf?_toNat]
  rfl

/-- What is escaped is read back, and no escape begins with a line break. -/
theorem exists_escapeOf (c : Char) : ∃ e escape, escapeOf c = e :: escape ∧ isBreak e = false
    ∧ ∀ rest, escape? (e :: escape ++ rest) = some (c, escape.length + 1) := by
  unfold escapeOf
  split
  all_goals try exact ⟨_, _, rfl, rfl, fun _ => rfl⟩
  have hsize : c.toNat < 0x110000 := by
    obtain h | ⟨-, h⟩ := c.valid
    · exact Nat.lt_trans h (by decide)
    · exact h
  split_ifs with hbyte hword
  · exact ⟨_, _, rfl, rfl, fun rest => escape?_hexDigits rest rfl (by omega)⟩
  · exact ⟨_, _, rfl, rfl, fun rest => escape?_hexDigits rest rfl (by omega)⟩
  · exact ⟨_, _, rfl, rfl, fun rest => escape?_hexDigits rest rfl (by omega)⟩

/-! ### Double quotes -/

/-- A character is escaped, or it stands for itself in a word. -/
theorem printEscaped_cases {c : Char} (h : c ≠ ' ') : printEscaped c = '\\' :: escapeOf c
    ∨ printEscaped c = [c] ∧ isGap c = false ∧ c ≠ '"' ∧ c ≠ '\\' := by
  unfold printEscaped
  split_ifs with hescaped
  · exact .inl rfl
  · simp only [Bool.or_eq_true, Bool.not_eq_true', not_or, beq_iff_eq, Bool.not_eq_true,
      Bool.not_eq_false] at hescaped
    obtain ⟨⟨⟨hprintable, hbreak⟩, hquote⟩, hbackslash⟩ := hescaped
    refine .inr ⟨rfl, ?_, hquote, hbackslash⟩
    rw [isGap, hbreak, Bool.or_false, ← Bool.not_eq_true, isBlank_iff hprintable]
    exact h

theorem spells_printEscaped {c : Char} (h : c ≠ ' ') : Place.Spells '"' c (printEscaped c) := by
  obtain hwritten | ⟨hwritten, hword, hquote, hbackslash⟩ := printEscaped_cases h
  · obtain ⟨e, escape, hescape, hbreak, hread⟩ := exists_escapeOf c
    rw [hwritten, hescape]
    exact Place.spells_escaped hbreak hread
  · rw [hwritten]
    exact Place.spells_self hword hquote fun _ => hbackslash

/-- Only a blank is written as a gap. -/
theorem head?_printEscaped {c : Char} (h : c ≠ ' ') :
    ∃ d cs, printEscaped c = d :: cs ∧ isGap d = false := by
  obtain hwritten | ⟨hwritten, hword, -⟩ := printEscaped_cases h
  · exact ⟨'\\', _, hwritten, rfl⟩
  · exact ⟨c, [], hwritten, hword⟩

/-- Between double quotes all gaps are blanks. -/
theorem Place.quotedFrom?_double {cs rest : List Char} {p : Place} (hcolumn : p.column ≠ 0)
    (h : p.rest = cs.flatMap printEscaped ++ '"' :: rest) :
    ∃ q, p.quotedFrom? '"' = some (cs, q) ∧ q.rest = rest := by
  induction cs using words_induction (· == ' ') generalizing p with
  | word w hw =>
    exact quotedFrom?_word rfl (fun c hc => spells_printEscaped (by simpa using hw c hc))
      hcolumn nofun h
  | gap w g cs hw hg hne hhead ih =>
    obtain ⟨n, rfl⟩ : ∃ n, g = List.replicate n ' ' :=
      ⟨_, List.eq_replicate_of_mem (by simpa using hg)⟩
    have hn : n ≠ 0 := by simpa using hne
    have hblanks : (List.replicate n ' ').flatMap printEscaped = _ := flatMap_replicate_self rfl n
    have hnext : ∀ c ∈ (cs.flatMap printEscaped ++ '"' :: rest).head?, isGap c = false := by
      cases cs with
      | nil =>
        rintro c ⟨⟩
        rfl
      | cons c cs =>
        obtain ⟨d, ds, hwritten, hd⟩ := head?_printEscaped (by simpa using hhead c rfl)
        simpa [hwritten] using hd
    rw [List.flatMap_append, List.flatMap_append, hblanks, List.append_assoc,
      List.append_assoc] at h
    obtain ⟨r, hr, hrest, hread⟩ := quotedFrom?_blanks rfl
      (fun c hc => spells_printEscaped (by simpa using hw c hc)) hcolumn hn hnext h
    obtain ⟨q, hq, htail⟩ := ih hr hrest
    exact ⟨q, hread _ _ hq, htail⟩

/-- A text between double quotes is read back. -/
theorem Place.readQuoted?_double {cs rest : List Char} {p : Place}
    (h : p.rest = printDoubleQuoted cs ++ rest) :
    ∃ q, p.readQuoted? '"' = some (cs, q) ∧ q.rest = rest := by
  rw [printDoubleQuoted, List.append_assoc] at h
  exact quotedFrom?_double (Nat.succ_ne_zero _) (rest_skip_one h)

/-! ### Single quotes -/

/-- A character as it is written between single quotes. -/
def doubleQuote (c : Char) : List Char := if c = '\'' then ['\'', '\''] else [c]

/-- What stands between single quotes, and the closing one. -/
def singleQuotedRest (indent : Nat) (cs : List Char) : List Char :=
  printLines indent doubleQuote false cs
    ++ (if cs.getLast?.any isBreak then List.replicate indent ' ' else []) ++ ['\'']

theorem printSingleQuoted_eq (indent : Nat) (cs : List Char) :
    printSingleQuoted indent cs = '\'' :: singleQuotedRest indent cs := rfl

theorem spells_doubleQuote {c : Char} (h : isGap c = false) :
    Place.Spells '\'' c (doubleQuote c) := by
  unfold doubleQuote
  split_ifs with hquote
  · subst hquote
    exact Place.spells_doubled
  · exact Place.spells_self h hquote nofun

section

variable {indent : Nat} {cs : List Char}

/-- What is written begins with a gap only if the text does. -/
theorem head?_singleQuotedRest (rest : List Char) (h : ∀ c ∈ cs.head?, isGap c = false) :
    ∀ c ∈ (singleQuotedRest indent cs ++ rest).head?, isGap c = false := by
  cases cs with
  | nil =>
    rintro c ⟨⟩
    rfl
  | cons c cs =>
    have hc : isGap c = false := h c rfl
    have hbreak : ¬ isBreak c = true := Bool.eq_false_iff.mp (isBreak_of_isGap hc)
    intro d hd
    rw [singleQuotedRest, printLines, if_neg hbreak, if_neg Bool.false_ne_true, doubleQuote] at hd
    split_ifs at hd
    all_goals
      obtain rfl : _ = d := Option.some.inj hd
      first | exact hc | rfl

/-- Within a line every character is written by itself. -/
theorem singleQuotedRest_line {line : List Char} (hline : ∀ c ∈ line, isBreak c = false) :
    singleQuotedRest indent (line ++ cs)
      = line.flatMap doubleQuote ++ singleQuotedRest indent cs := by
  simp only [singleQuotedRest, printLines_line hline, getLast?_any_isBreak hline, List.append_assoc]

/-- After line breaks, a line or the closing quote is indented. -/
theorem singleQuotedRest_breaks {breaks : List Char} (hne : breaks ≠ [])
    (hbreaks : ∀ c ∈ breaks, isBreak c = true) (hhead : ∀ c ∈ cs.head?, isBreak c = false) :
    singleQuotedRest indent (breaks ++ cs)
      = breaks ++ (List.replicate indent ' ' ++ singleQuotedRest indent cs) := by
  simp only [singleQuotedRest, printLines_breaks hne hbreaks]
  cases cs with
  | nil =>
    rw [List.append_nil, getLast?_any_isBreak_of_breaks hne hbreaks, if_pos rfl]
    simp [printLines]
  | cons c cs =>
    rw [printLines_start (List.cons_ne_nil c cs) hhead, List.getLast?_append_cons]
    simp only [List.append_assoc]

end

theorem allowsSingleQuotes_iff {cs : List Char} : allowsSingleQuotes cs = true ↔
    (∀ c ∈ cs, isPrintable c = true) ∧ hasPair (· == ' ') isBreak cs = false
      ∧ hasPair isBreak (· == ' ') cs = false := by
  rw [allowsSingleQuotes, Bool.not_eq_true', Bool.or_eq_false_iff, needsEscapes_eq_false_iff,
    and_assoc]

theorem allowsSingleQuotes_of_part {part cs : List Char} (hpart : part <:+: cs)
    (h : allowsSingleQuotes cs = true) : allowsSingleQuotes part = true := by
  obtain ⟨hprintable, hblank, hbreak⟩ := allowsSingleQuotes_iff.mp h
  exact allowsSingleQuotes_iff.mpr ⟨fun c hc => hprintable c (hpart.mem hc),
    hasPair_of_part hpart hblank, hasPair_of_part hpart hbreak⟩

/-- Between single quotes no blank stands beside a line break, so a gap is of one kind. -/
theorem gap_cases {g : List Char} (h : allowsSingleQuotes g = true)
    (hg : ∀ c ∈ g, isGap c = true) : (∀ c ∈ g, c = ' ') ∨ ∀ c ∈ g, isBreak c = true := by
  induction g with
  | nil => exact .inl (List.forall_mem_nil _)
  | cons c g ih =>
    have htail := allowsSingleQuotes_of_part (List.suffix_cons c g).isInfix h
    obtain ⟨hprintable, hblank, hbreak⟩ := allowsSingleQuotes_iff.mp h
    obtain ⟨hc, hg⟩ := List.forall_mem_cons.mp hg
    have hkinds : c = ' ' ∨ isBreak c = true := by
      rw [← isBlank_iff (hprintable c List.mem_cons_self)]
      simpa only [isGap, Bool.or_eq_true] using hc
    cases g with
    | nil => simpa using hkinds
    | cons d g =>
      rw [hasPair, Bool.or_eq_false_iff, Bool.and_eq_false_imp] at hblank hbreak
      obtain hd | hd := ih htail hg
      · refine .inl (List.forall_mem_cons.mpr ⟨hkinds.resolve_right fun h => ?_, hd⟩)
        have hne : d ≠ ' ' := by simpa using hbreak.1 h
        exact hne (hd d List.mem_cons_self)
      · refine .inr (List.forall_mem_cons.mpr ⟨hkinds.resolve_left fun h => ?_, hd⟩)
        have hline : isBreak d = false := hblank.1 (by simpa using h)
        exact Bool.eq_false_iff.mp hline (hd d List.mem_cons_self)

theorem Place.quotedFrom?_single {indent : Nat} {cs rest : List Char} {p : Place}
    (hindent : indent ≠ 0) (hallowed : allowsSingleQuotes cs = true) (hfeed : '\n' ∉ cs)
    (hrest : rest.head? ≠ some '\'') (hcolumn : p.column ≠ 0)
    (h : p.rest = singleQuotedRest indent cs ++ rest) :
    ∃ q, p.quotedFrom? '\'' = some (cs, q) ∧ q.rest = rest := by
  induction cs using words_induction isGap generalizing p with
  | word w hw =>
    have hwritten : singleQuotedRest indent (w ++ []) = _ :=
      singleQuotedRest_line fun c hc => isBreak_of_isGap (hw c hc)
    rw [List.append_nil] at hwritten
    rw [hwritten, List.append_assoc] at h
    exact quotedFrom?_word rfl (fun c hc => spells_doubleQuote (hw c hc)) hcolumn
      (fun _ => hrest) h
  | gap w g cs hw hg hne hhead ih =>
    have hpart : g <:+: w ++ (g ++ cs) := ⟨w, cs, List.append_assoc _ _ _⟩
    have htail : cs <:+: w ++ (g ++ cs) := ⟨w ++ g, [], by simp⟩
    have hallowed' := allowsSingleQuotes_of_part htail hallowed
    have hfeed' : '\n' ∉ cs := fun hc => hfeed (htail.mem hc)
    have hword : ∀ c ∈ w, Spells '\'' c (doubleQuote c) := fun c hc => spells_doubleQuote (hw c hc)
    have hnext : ∀ c ∈ (singleQuotedRest indent cs ++ rest).head?, isGap c = false :=
      head?_singleQuotedRest rest hhead
    rw [singleQuotedRest_line fun c hc => isBreak_of_isGap (hw c hc)] at h
    obtain hblanks | hbreaks := gap_cases (allowsSingleQuotes_of_part hpart hallowed) hg
    · obtain ⟨n, rfl⟩ : ∃ n, g = List.replicate n ' ' :=
        ⟨_, List.eq_replicate_of_mem hblanks⟩
      have hn : n ≠ 0 := by simpa using hne
      have hwritten : (List.replicate n ' ').flatMap doubleQuote = _ :=
        flatMap_replicate_self rfl n
      have hline : ∀ c ∈ List.replicate n ' ', isBreak c = false := by
        intro c hc
        rw [hblanks c hc]
        rfl
      rw [singleQuotedRest_line hline, hwritten, List.append_assoc, List.append_assoc] at h
      obtain ⟨r, hr, hrest', hread⟩ := quotedFrom?_blanks rfl hword hcolumn hn hnext h
      obtain ⟨q, hq, hend⟩ := ih hallowed' hfeed' hr hrest'
      exact ⟨q, hread _ _ hq, hend⟩
    · cases g with
      | nil => exact absurd rfl hne
      | cons b breaks =>
        have hprintable := (allowsSingleQuotes_iff.mp hallowed).1
        have hb : b ≠ '\n' := by
          rintro rfl
          exact hfeed (hpart.mem List.mem_cons_self)
        rw [singleQuotedRest_breaks hne hbreaks fun c hc => isBreak_of_isGap (hhead c hc),
          List.append_assoc, List.append_assoc, List.append_assoc] at h
        obtain ⟨r, hr, hrest', hread⟩ := quotedFrom?_breaks rfl hword hcolumn hindent
          (fun c hc => ⟨hprintable c (hpart.mem hc), hbreaks c hc⟩) hb hnext h
        obtain ⟨q, hq, hend⟩ := ih hallowed' hfeed' hr hrest'
        exact ⟨q, hread _ _ hq, hend⟩

/-- A text without line feeds between single quotes is read back. -/
theorem Place.readQuoted?_single {indent : Nat} {cs rest : List Char} {p : Place}
    (hindent : indent ≠ 0) (hallowed : allowsSingleQuotes cs = true) (hfeed : '\n' ∉ cs)
    (hrest : rest.head? ≠ some '\'') (h : p.rest = printSingleQuoted indent cs ++ rest) :
    ∃ q, p.readQuoted? '\'' = some (cs, q) ∧ q.rest = rest :=
  quotedFrom?_single hindent hallowed hfeed hrest (Nat.succ_ne_zero _) (rest_skip_one h)

end ShopTables.Yaml
