/-!
# Places in a YAML text

A `Place` is what is left of a text together with where that begins: how many characters precede
it, in which line and in which column. Five characters end a line; of them the line and paragraph
separators stand for themselves, all others for a line feed, and so does the pair of carriage
return and line feed.
-/

namespace ShopTables.Yaml

/-! ### Characters -/

def lineSeparator : Char := '\u2028'

def paragraphSeparator : Char := '\u2029'

def isBreak (c : Char) : Bool :=
  c == '\n' || c == '\r' || c == '\u0085' || c == lineSeparator || c == paragraphSeparator

def isBlank (c : Char) : Bool := c == ' ' || c == '\t'

/-- May a character stand in the name of an anchor, a handle or a directive? -/
def isWord (c : Char) : Bool := c.isAlphanum || c == '_' || c == '-'

/-- May a character stand in a text at all? Controls other than tab and line breaks may not. -/
def isAllowed (c : Char) : Bool :=
  let n := c.toNat
  n == 0x09 || n == 0x0A || n == 0x0D || (0x20 ≤ n && n ≤ 0x7E) || n == 0x85
    || (0xA0 ≤ n && n ≤ 0xFFFD) || 0x10000 ≤ n

def breakText (c : Char) : List Char :=
  if c = lineSeparator ∨ c = paragraphSeparator then [c] else ['\n']

/-- Does the rest of a text begin with a blank, a line break, or not at all? -/
def endsWord : List Char → Bool
  | [] => true
  | c :: _ => isBlank c || isBreak c

/-! ### Places -/

/-- What is left of a text, and where it begins. -/
structure Place where
  /-- How many characters precede the place. -/
  index : Nat
  line : Nat
  column : Nat
  rest : List Char

namespace Place

def start (text : List Char) : Place := ⟨0, 0, 0, text⟩

/-- The place after `n` characters of the line. -/
def skip (n : Nat) (p : Place) : Place :=
  { p with index := p.index + n, column := p.column + n, rest := p.rest.drop n }

/-- The start of the next line, if the place is at a line break. -/
def skipBreak (p : Place) : Place :=
  match p.rest with
  | '\r' :: '\n' :: cs => ⟨p.index + 2, p.line + 1, 0, cs⟩
  | c :: cs => if isBreak c then ⟨p.index + 1, p.line + 1, 0, cs⟩ else p
  | [] => p

/-- The place after the characters of the line that satisfy a predicate. -/
def skipWhile (f : Char → Bool) (p : Place) : Place := p.skip (p.rest.takeWhile f).length

def isAt (c : Char) (p : Place) : Bool := p.rest.head? == some c

/-- Is the place at the end of a line or of the text? -/
def isAtLineEnd (p : Place) : Bool := p.rest.head?.all isBreak

/-- Three characters that stand for themselves at the start of a line. -/
def isAtMark (c : Char) (p : Place) : Bool :=
  p.column == 0 && p.rest.take 3 == [c, c, c] && endsWord (p.rest.drop 3)

/-- Is the place at the start or end mark of a document? -/
def isAtDocumentMark (p : Place) : Bool := p.isAtMark '-' || p.isAtMark '.'

/-- The place after a comment, if there is one. -/
def skipComment (p : Place) : Place := if p.isAt '#' then p.skipWhile (!isBreak ·) else p

/-- The start of the next line, if only blanks and a comment are left of this one. -/
def endLine? (p : Place) : Option Place :=
  let q := (p.skipWhile isBlank).skipComment
  if q.isAtLineEnd then some q.skipBreak else none

theorem length_skip_le (n : Nat) (p : Place) : (p.skip n).rest.length ≤ p.rest.length := by
  simp [skip]

theorem length_skipWhile_le (f : Char → Bool) (p : Place) :
    (p.skipWhile f).rest.length ≤ p.rest.length := length_skip_le _ p

theorem length_skipComment_le (p : Place) : p.skipComment.rest.length ≤ p.rest.length := by
  unfold skipComment
  split
  · exact length_skipWhile_le _ p
  · exact Nat.le_refl _

theorem length_skip_lt {c : Char} {cs : List Char} {p : Place} (n : Nat) (h : p.rest = c :: cs) :
    (p.skip (n + 1)).rest.length < p.rest.length := by
  simp only [skip, h, List.length_drop, List.length_cons]
  omega

theorem length_skipBreak_lt {c : Char} {cs : List Char} {p : Place} (h : p.rest = c :: cs)
    (hc : isBreak c) : p.skipBreak.rest.length < p.rest.length := by
  unfold skipBreak
  split
  · rename_i h'
    simp only [h', List.length_cons]
    omega
  · rename_i h'
    rw [h] at h'
    cases h'
    simp [hc, h]
  · rename_i h'; simp [h] at h'

end Place

end ShopTables.Yaml
