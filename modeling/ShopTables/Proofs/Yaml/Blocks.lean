import ShopTables.Proofs.Yaml.Plain
import ShopTables.Yaml.Lexer

/-!
# Blocks are opened and closed by their columns

Between two tokens of a block the lexer knows its `Blocks` and whether a key may begin, and nothing
else (`Blocks.lexer`). How the value of one key ended does not matter for the next, once the place
is before its line (`Place.Precedes`): a key opens the block of its column if need be
(`Blocks.run?_key`), and a block is closed by a line left of it (`Blocks.run?_leave`).
-/

namespace ShopTables.Yaml

/-! ### Lines -/

/-- How far the first line is indented. -/
def margin (lines : List Char) : Nat := (lines.takeWhile (· == ' ')).length

def pastMargin (lines : List Char) : List Char := lines.dropWhile (· == ' ')

theorem replicate_margin (lines : List Char) :
    List.replicate (margin lines) ' ' ++ pastMargin lines = lines := by
  have hblanks : lines.takeWhile (· == ' ') = List.replicate (margin lines) ' ' :=
    List.eq_replicate_of_mem fun c hc => by simpa using List.mem_takeWhile_imp hc
  rw [← hblanks]
  exact List.takeWhile_append_dropWhile

section

variable {n : Nat} {text : List Char} (h : text.head? ≠ some ' ')

include h

theorem margin_replicate : margin (List.replicate n ' ' ++ text) = n := by
  rw [margin, takeWhile_replicate_append rfl, takeWhile_eq_nil (not_blank_of_head? h),
    List.append_nil, List.length_replicate]

theorem pastMargin_replicate : pastMargin (List.replicate n ' ' ++ text) = text := by
  have hparts := replicate_margin (List.replicate n ' ' ++ text)
  rw [margin_replicate h] at hparts
  exact List.append_cancel_left hparts

end

/-- Does the first line, if there is one, begin with a name? -/
def BeginsWithName (lines : List Char) : Prop :=
  ∀ c ∈ (pastMargin lines).head?, isNameChar c = true

/-! ### Between tokens -/

/-- May a character begin a token? -/
def isTokenStart (c : Char) : Bool := !isGap c && c != '#' && c != '\uFEFF'

theorem isTokenStart_of_isNameChar {c : Char} (h : isNameChar c = true) :
    isTokenStart c = true := by
  simp [isTokenStart, isGap_of_isNameChar h, ne_of_kind h (d := '#') rfl,
    ne_of_kind h (d := '\uFEFF') rfl]

namespace Place

variable {p : Place} {allowed : Bool} {n : Nat} {text : List Char}

/-- Blanks are passed over. -/
theorem skipBlanks_eq {tabs : Bool} (h : p.rest = List.replicate n ' ' ++ text)
    (hstart : ∀ c ∈ text.head?, isBlank c = false ∧ c ≠ '#' ∧ c ≠ '\uFEFF') :
    p.skipBlanks tabs = p.skip n := by
  have hrest : (p.skip n).rest = text := rest_skip_blanks h
  have hmark : p.isAt '\uFEFF' = false := by
    rw [isAt, h, beq_eq_false_iff_ne]
    cases n with
    | zero => exact fun hc => (hstart _ hc).2.2 rfl
    | succ n => simp [List.replicate_succ]
  have hcomment : (p.skip n).isAt '#' = false := by
    rw [isAt, hrest, beq_eq_false_iff_ne]
    exact fun hc => (hstart _ hc).2.1 rfl
  have hwidth : (p.rest.takeWhile fun c => c == ' ' || (tabs && c == '\t')).length = n := by
    have hnone : ∀ c ∈ text.head?, (c == ' ' || (tabs && c == '\t')) = false := by
      intro c hc
      have hblank := (hstart c hc).1
      rw [isBlank, Bool.or_eq_false_iff] at hblank
      rw [hblank.1, hblank.2, Bool.and_false, Bool.or_false]
    rw [h, takeWhile_replicate_append rfl, takeWhile_eq_nil hnone, List.append_nil,
      List.length_replicate]
  rw [skipBlanks, skipByteOrderMark, hmark, Bool.and_false, if_neg Bool.false_ne_true, skipWhile,
    hwidth, skipComment, hcomment, if_neg Bool.false_ne_true]

section

variable (hstart : ∀ c ∈ text.head?, isTokenStart c = true)

include hstart

/-- A token on the same line is reached. -/
theorem skipToToken_line (h : p.rest = List.replicate n ' ' ++ text) :
    p.skipToToken false allowed = (p.skip n, allowed) := by
  have hskip : p.skipBlanks (false || !allowed) = p.skip n := skipBlanks_eq h fun c hc => by
    have hc := hstart c hc
    simp only [isTokenStart, isGap, Bool.and_eq_true, Bool.not_eq_true', Bool.or_eq_false_iff,
      bne_iff_ne] at hc
    exact ⟨hc.1.1.1, hc.1.2, hc.2⟩
  rw [skipToToken]
  split
  · rw [hskip]
  · rename_i c cs hrest
    rw [hskip, rest_skip_blanks h] at hrest
    have hc : isBreak c = false := by
      have hc := hstart c (hrest ▸ rfl)
      simp only [isTokenStart, isGap, Bool.and_eq_true, Bool.not_eq_true',
        Bool.or_eq_false_iff] at hc
      exact hc.1.1.2
    simp only [hc, hskip, Bool.false_eq_true, dite_false]

variable (allowed) in
/-- A token on the next line is reached, and it may be a key. -/
theorem skipToToken_feed (h : p.rest = '\n' :: (List.replicate n ' ' ++ text)) :
    ∃ q, p.skipToToken false allowed = (q, true) ∧ q.column = n ∧ q.rest = text := by
  have hskip : p.skipBlanks (false || !allowed) = p :=
    skipBlanks_eq (n := 0) h (by simp [isBlank])
  have hbreak : p.skipBreak = ⟨p.index + 1, p.line + 1, 0, List.replicate n ' ' ++ text⟩ :=
    skipBreak_eq h rfl (by decide)
  have hrest : p.skipBreak.rest = List.replicate n ' ' ++ text := by rw [hbreak]
  refine ⟨p.skipBreak.skip n, ?_, ?_, rest_skip_blanks hrest⟩
  · rw [skipToToken]
    split
    · rename_i hrest
      rw [hskip, h] at hrest
      cases hrest
    · rename_i hrest
      rw [hskip, h] at hrest
      cases hrest
      rw [dif_pos (by decide), hskip, skipToToken_line hstart hrest, Bool.not_false, Bool.or_true]
  · rw [hbreak]
    exact Nat.zero_add n

end

/-- Are the next tokens those of the lines, of which the first may be a key? -/
def Precedes (p : Place) (allowed : Bool) (lines : List Char) : Prop :=
  ∃ q, p.skipToToken false allowed = (q, true) ∧ q.column = margin lines
    ∧ q.rest = pastMargin lines ∧ q.rest.length ≤ p.rest.length

section

variable {lines : List Char} (hname : BeginsWithName lines)

include hname

theorem precedes_of_column (hcolumn : p.column = margin lines) (h : p.rest = pastMargin lines) :
    p.Precedes true lines := by
  refine ⟨p, ?_, hcolumn, h, Nat.le_refl _⟩
  exact skipToToken_line (n := 0)
    (fun c hc => isTokenStart_of_isNameChar (hname c hc)) h

theorem precedes_of_feed (h : p.rest = '\n' :: lines) : p.Precedes allowed lines := by
  rw [← replicate_margin lines] at h
  obtain ⟨q, hq, hcolumn, hrest⟩ := skipToToken_feed allowed
    (fun c hc => isTokenStart_of_isNameChar (hname c hc)) h
  refine ⟨q, hq, hcolumn, hrest, ?_⟩
  rw [hrest, h, List.length_cons, List.length_append]
  omega

end

end Place

/-! ### Blocks -/

/-- The blocks that are open, and the tokens found so far, the last one first. -/
structure Blocks where
  /-- The indentation of the innermost block, -1 if there is none. -/
  indent : Int
  /-- The indentations of the enclosing blocks. -/
  outers : List Int
  found : List Token

namespace Blocks

/-- The lexer at a place between two tokens. -/
def lexer (b : Blocks) (p : Place) (allowed : Bool) (candidate : Option KeyCandidate := none) :
    Lexer :=
  { place := p, found := b.found, indent := b.indent, outerIndents := b.outers, candidate,
    keyAllowed := allowed }

/-- Adds tokens. -/
def add (ts : List Token) (b : Blocks) : Blocks := { b with found := ts.reverse ++ b.found }

/-- Opens a mapping at a column, unless the innermost block is there. -/
def openAt (column : Nat) (b : Blocks) : Blocks :=
  if b.indent < column then
    { indent := column, outers := b.indent :: b.outers, found := .blockMapping :: b.found }
  else b

/-- Closes the blocks that are right of a column. -/
def closeTo (column : Int) (b : Blocks) : Blocks :=
  let (indent, outers, found) := Lexer.closeFrom column b.indent b.outers b.found
  { indent, outers, found }

theorem closeTo_of_le {column : Int} {b : Blocks} (h : b.indent ≤ column) :
    b.closeTo column = b := by
  obtain ⟨indent, outers, found⟩ := b
  cases outers with
  | nil => rfl
  | cons outer outers =>
    have hclose : ¬ column < indent := Int.not_lt.mpr h
    simp only [closeTo, Lexer.closeFrom, if_neg hclose]

theorem closeTo_cons {column indent outer : Int} {outers : List Int} {found : List Token}
    (h : column < indent) : closeTo column ⟨indent, outer :: outers, found⟩
      = closeTo column ⟨outer, outers, .blockEnd :: found⟩ := by
  simp only [closeTo, Lexer.closeFrom, if_pos h]

end Blocks

/-! ### Steps -/

namespace Lexer

theorem startsPlain_of_isNameChar {c : Char} {cs : List Char} (h : isNameChar c = true) :
    startsPlain false (c :: cs) = true := by
  have hgap : (isBlank c || isBreak c) = false := isGap_of_isNameChar h
  have hindicator : indicators.contains c = false := by
    rw [← Bool.not_eq_true, List.contains_iff_mem]
    exact not_mem_of_kind h (by decide)
  rw [startsPlain, hgap, hindicator]
  rfl

variable {lx lx' lx'' : Lexer}

theorem insert_eq (t : Token) {later earlier : List Token} (h : lx.found = later ++ earlier) :
    lx.insert t earlier.length = { lx with found := later ++ t :: earlier } := by
  rw [insert, h, List.length_append, Nat.add_sub_cancel, List.splitAt_eq, List.take_left,
    List.drop_left]

theorem run?_step (hadvance : lx.advance? = some lx') (hne : lx'.place.rest ≠ [])
    (htoken : lx'.token? = some lx'') (hshorter : lx''.place.rest.length < lx.place.rest.length) :
    lx.run? = lx''.run? := by
  rw [run?, hadvance]
  simp only [List.isEmpty_iff, hne, if_false, htoken, hshorter, if_true]

theorem run?_end (hadvance : lx.advance? = some lx') (hend : lx'.place.rest = []) :
    lx.run? = lx'.finish? := by
  rw [run?, hadvance]
  simp only [hend, List.isEmpty_nil, if_true]

/-- What follows depends on what the lexer goes on to. -/
theorem run?_congr (hadvance : lx.advance? = lx'.advance?) (hplace : lx.place = lx'.place) :
    lx.run? = lx'.run? := by
  rw [run?, run?, hadvance, hplace]

end Lexer

namespace Blocks

variable {b : Blocks} {p q : Place} {allowed allowed' : Bool} {lines : List Char}

/-- Before the next token, the blocks right of it are closed. -/
theorem advance?_lexer {k : Option KeyCandidate} (h : p.skipToToken false allowed = (q, allowed'))
    (hfresh : Lexer.freshen? q k = some k) :
    (b.lexer p allowed k).advance? = some ((b.closeTo q.column).lexer q allowed' k) := by
  have hskip : (b.lexer p allowed k).place.skipToToken (b.lexer p allowed k).inFlow
      (b.lexer p allowed k).keyAllowed = (q, allowed') := h
  have hfreshen : (b.lexer q allowed' k).freshenAll? = some (b.lexer q allowed' k) := by
    simp [Lexer.freshenAll?, lexer, hfresh]
  rw [Lexer.advance?, hskip]
  show ((b.lexer q allowed' k).freshenAll?.bind fun lx => some (lx.closeBlocks lx.place.column)) = _
  rw [hfreshen]
  rfl

/-- A block that the next line is left of is closed. -/
theorem run?_leave {indent outer : Int} {outers : List Int} {found : List Token}
    (h : p.Precedes allowed lines) (hleft : margin lines < indent) :
    ((Blocks.mk indent (outer :: outers) found).lexer p allowed).run?
      = ((Blocks.mk outer outers (.blockEnd :: found)).lexer p allowed).run? := by
  obtain ⟨q, hq, hcolumn, -⟩ := h
  refine Lexer.run?_congr ?_ rfl
  rw [advance?_lexer hq rfl, advance?_lexer hq rfl, closeTo_cons (hcolumn ▸ hleft)]

/-- A name that begins at a place, after all tokens so far. -/
def candidateAt (b : Blocks) (p : Place) : KeyCandidate :=
  { required := b.indent == p.column
    number := b.found.length
    index := p.index
    line := p.line
    column := p.column }

/-- A name is read, and may be a key. -/
theorem token?_name {name rest : List Char} (hname : isName name = true)
    (hrest : endsWord rest = true) (h : p.rest = name ++ ':' :: rest) :
    (b.lexer p true).token?
      = some ((b.add [.scalar .plain name]).lexer (p.skip name.length) false
          (b.candidateAt p)) := by
  obtain ⟨hne, hchars⟩ := isName_iff.mp hname
  obtain ⟨c, cs, hcons⟩ := List.exists_cons_of_ne_nil hne
  have hc : isNameChar c = true := hchars c (hcons ▸ List.mem_cons_self)
  have hrest' : p.rest = c :: (cs ++ ':' :: rest) := by rw [h, hcons, List.cons_append]
  have hat : ∀ d ∈ Lexer.indicators, p.isAt d = false := fun d hd => by
    rw [Place.isAt_cons hrest', beq_eq_false_iff_ne]
    rintro rfl
    exact not_mem_of_kind hc (by decide) hd
  have hdash : p.isAtMark '-' = false := Place.isAtMark_of_isNameChar hrest' hc rfl
  have hdots : p.isAtMark '.' = false := Place.isAtMark_of_isNameChar hrest' hc rfl
  have hplain : Lexer.startsPlain false p.rest = true := hrest' ▸ Lexer.startsPlain_of_isNameChar hc
  have hread : p.readPlain? false b.indent = some (name, false, p.skip name.length) :=
    Place.readPlain?_name hname hrest h
  simp only [Lexer.indicators, List.forall_mem_cons] at hat
  simp [Lexer.token?, lexer, hat, hdash, hdots, Lexer.inFlow, hplain, Lexer.plain?,
    Lexer.keepCandidate?, Lexer.dropCandidate?, hread, Lexer.allowKey, Lexer.add, add, candidateAt]

/-- A block is opened before the last tokens. -/
theorem openBlock_lexer {ts : List Token} {column : Nat} {k : Option KeyCandidate} :
    ((b.add ts).lexer p allowed k).openBlock .blockMapping column b.found.length
      = ((b.openAt column).add ts).lexer p allowed k := by
  have hinsert : ((b.add ts).lexer p allowed k).insert .blockMapping b.found.length
      = { (b.add ts).lexer p allowed k with found := ts.reverse ++ .blockMapping :: b.found } :=
    Lexer.insert_eq .blockMapping rfl
  rw [Lexer.openBlock, openAt, hinsert]
  by_cases hindent : b.indent < column
  · rw [if_pos hindent, if_pos]
    · rfl
    · exact decide_eq_true hindent
  · rw [if_neg hindent, if_neg]
    exact fun h => hindent (of_decide_eq_true h)

/-- The colon makes the name a key. -/
theorem token?_colon {name rest : List Char} {start : Place} (hrest : endsWord rest = true)
    (h : p.rest = ':' :: rest) :
    ((b.add [.scalar .plain name]).lexer p false (b.candidateAt start)).token?
      = some (((b.openAt start.column).add [.key, .scalar .plain name, .value]).lexer (p.skip 1)
          false) := by
  have hat := Place.isAt_cons h
  have hmark : ∀ d, d ≠ ':' → p.isAtMark d = false := fun d hd => by
    have htake : (p.rest.take 3 == [d, d, d]) = false := by
      rw [h, beq_eq_false_iff_ne]
      exact fun hcs => hd (List.cons.inj hcs).1.symm
    rw [Place.isAtMark, htake, Bool.and_false, Bool.false_and]
  have hvalue : ((b.add [.scalar .plain name]).lexer p false (b.candidateAt start)).token?
      = ((b.add [.scalar .plain name]).lexer p false (b.candidateAt start)).value? := by
    simp [Lexer.token?, lexer, hat, hmark, h, hrest]
  have hkey : ((b.add [.scalar .plain name]).lexer p false (b.candidateAt start)).insert .key
      b.found.length = (b.add [.key, .scalar .plain name]).lexer p false (b.candidateAt start) :=
    @Lexer.insert_eq _ .key [.scalar .plain name] _ rfl
  calc ((b.add [.scalar .plain name]).lexer p false (b.candidateAt start)).token?
    _ = ((b.add [.scalar .plain name]).lexer p false (b.candidateAt start)).value? := hvalue
    _ = some (({ (((b.add [.scalar .plain name]).lexer p false (b.candidateAt start)).insert .key
          b.found.length).openBlock .blockMapping start.column b.found.length with
        candidate := none }.allowKey false).addMark .value 1) := rfl
    _ = some (({ ((b.openAt start.column).add [.key, .scalar .plain name]).lexer p false
          (b.candidateAt start) with candidate := none }.allowKey false).addMark .value 1) := by
      rw [hkey, openBlock_lexer]
    _ = some (((b.openAt start.column).add [.key, .scalar .plain name, .value]).lexer (p.skip 1)
          false) := rfl

/-- A key opens the block of its column. -/
theorem run?_key {column : Nat} {name rest : List Char}
    (h : p.Precedes allowed (List.replicate column ' ' ++ (name ++ ':' :: rest)))
    (hname : isName name = true) (hshort : name.length ≤ 1024) (hrest : endsWord rest = true)
    (hindent : b.indent ≤ column) :
    ∃ q : Place, q.rest = rest ∧ column < q.column ∧ (b.lexer p allowed).run?
      = (((b.openAt column).add [.key, .scalar .plain name, .value]).lexer q false).run? := by
  have hhead : (name ++ ':' :: rest).head? ≠ some ' ' := head?_ne_blank hname
  obtain ⟨q, hq, hcolumn, htext, hle⟩ := h
  rw [margin_replicate hhead] at hcolumn
  rw [pastMargin_replicate hhead] at htext
  subst hcolumn
  have hcolon : (q.skip name.length).rest = ':' :: rest := Place.rest_skip htext
  -- the name
  have hfirst := advance?_lexer (b := b) (k := none) hq rfl
  rw [closeTo_of_le hindent] at hfirst
  have hshorter : (q.skip name.length).rest.length < p.rest.length := by
    have hlength := List.length_pos_of_ne_nil (isName_iff.mp hname).1
    rw [hcolon]
    rw [htext, List.length_append] at hle
    omega
  have hread := Lexer.run?_step hfirst (by simp [lexer, htext]) (token?_name hname hrest htext)
    hshorter
  -- the colon
  have hstay : (q.skip name.length).skipToToken false false = (q.skip name.length, false) :=
    Place.skipToToken_line (n := 0) (by rintro c ⟨⟩; rfl) hcolon
  have hfresh : Lexer.freshen? (q.skip name.length) (some (b.candidateAt q))
      = some (some (b.candidateAt q)) := by
    have hstale : Lexer.isStale (q.skip name.length) (b.candidateAt q) = false := by
      refine Bool.or_eq_false_iff.mpr ⟨decide_eq_false (Nat.lt_irrefl q.line), decide_eq_false ?_⟩
      show ¬ q.index + 1024 < q.index + name.length
      omega
    rw [Lexer.freshen?, hstale, if_neg Bool.false_ne_true]
  have hsecond := advance?_lexer (b := b.add [.scalar .plain name]) hstay hfresh
  have hinside : (b.add [.scalar .plain name]).indent ≤ (q.skip name.length).column :=
    Int.le_trans hindent (Int.ofNat_le.mpr (Nat.le_add_right _ _))
  rw [closeTo_of_le hinside] at hsecond
  have hnext : ((q.skip name.length).skip 1).rest = rest := Place.rest_skip_one hcolon
  have hvalue := Lexer.run?_step hsecond (by simp [lexer, hcolon]) (token?_colon hrest hcolon)
    (by simp [lexer, hcolon, hnext])
  refine ⟨(q.skip name.length).skip 1, hnext, ?_, hread.trans hvalue⟩
  simp only [Place.skip]
  omega

end Blocks

end ShopTables.Yaml
