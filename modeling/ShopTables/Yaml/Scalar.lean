import ShopTables.Yaml.Place

/-!
# Scalars in a YAML text

A scalar is written in one of five styles. In the plain and the quoted ones a scalar may go over
several lines, and the `Gap` between two parts of it is folded: blanks within a line stay, a single
line break is a blank, further ones are kept. In the two block styles the lines of a scalar are
those indented under it, and what follows the last of them is kept or dropped as the `Chomping`
says. `Place.readPlain?`, `Place.readQuoted?` and `Place.readBlock?` read one scalar each.
-/

namespace ShopTables.Yaml

/-- How a scalar is written. -/
inductive ScalarStyle where
  | plain
  | singleQuoted
  | doubleQuoted
  | literal
  | folded
  deriving DecidableEq

/-! ### Gaps -/

/-- What stands between two parts of a scalar. -/
structure Gap where
  /-- The blanks before any line break. -/
  blanks : List Char := []
  /-- Has a line ended? -/
  broken : Bool := false
  /-- The first line break. -/
  first : List Char := []
  /-- The line breaks after the first. -/
  more : List Char := []

namespace Gap

def text (g : Gap) : List Char :=
  if g.broken then
    if g.first = ['\n'] then if g.more.isEmpty then [' '] else g.more
    else g.first ++ g.more
  else g.blanks

/-- Adds a blank; after a line break, blanks are indentation. -/
def addBlank (c : Char) (g : Gap) : Gap :=
  if g.broken then g else { g with blanks := g.blanks ++ [c] }

def addBreak (text : List Char) (g : Gap) : Gap :=
  if g.broken then { g with more := g.more ++ text } else { broken := true, first := text }

end Gap

/-- Reads blanks and line breaks into a gap. After a line break, a tab left of the column `least`
is refused. -/
def Place.readGap? (least : Int) (g : Gap) (p : Place) : Option (Gap × Place) :=
  match _h : p.rest with
  | [] => some (g, p)
  | c :: _ =>
    if isBlank c then
      if g.broken && c == '\t' && p.column < least then none
      else readGap? least (g.addBlank c) (p.skip 1)
    else if _hc : isBreak c then readGap? least (g.addBreak (breakText c)) p.skipBreak
    else some (g, p)
termination_by p.rest.length
decreasing_by
  · exact Place.length_skip_lt 0 _h
  · exact Place.length_skipBreak_lt _h _hc

/-! ### Plain scalars -/

/-- The characters that end a plain scalar inside brackets. -/
def flowIndicators : List Char := [',', '[', ']', '{', '}']

/-- Reads the characters of a plain scalar up to a blank, the end of the line or an indicator.
Inside brackets, a colon right before an indicator or a question mark is refused. -/
def plainWord? (inFlow : Bool) : List Char → Option (List Char)
  | [] => some []
  | c :: cs =>
    if isBlank c || isBreak c then some []
    else if inFlow && c == ':' && cs.head?.any (fun d => d == '?' || flowIndicators.contains d) then
      none
    else if (c == ':' && endsWord cs) || (inFlow && flowIndicators.contains c) then some []
    else (plainWord? inFlow cs).map (c :: ·)

/-- Reads what is left of a plain scalar after a gap: its text with that of the gap, whether a line
has ended after it, and the place. Outside brackets it ends at a line that is not indented to the
column `least`; the gap before its end is no part of it. -/
def Place.plainFrom? (inFlow : Bool) (least : Int) (gap : Gap) (p : Place) :
    Option (List Char × Bool × Place) :=
  if p.isAtDocumentMark || p.isAt '#' then some ([], gap.broken, p)
  else
    match plainWord? inFlow p.rest with
    | none => none
    | some [] => some ([], gap.broken, p)
    | some (c :: cs) =>
      let text := gap.text ++ c :: cs
      let q := p.skip (c :: cs).length
      if q.rest.isEmpty || !endsWord q.rest then some (text, false, q)
      else
        match q.readGap? least {} with
        | none => none
        | some (next, r) =>
          if !inFlow && (r.column : Int) < least then some (text, next.broken, r)
          else if r.rest.length < p.rest.length then
            (plainFrom? inFlow least next r).map fun (more, broken, s) =>
              (text ++ more, broken, s)
          else none
termination_by p.rest.length

/-- Reads a plain scalar inside a block of the given indentation. -/
def Place.readPlain? (inFlow : Bool) (indent : Int) (p : Place) :
    Option (List Char × Bool × Place) :=
  p.plainFrom? inFlow (indent + 1) {}

/-! ### Quoted scalars -/

def hexValue? (c : Char) : Option Nat :=
  if c.isDigit then some (c.toNat - '0'.toNat)
  else if 'a' ≤ c ∧ c ≤ 'f' then some (c.toNat - 'a'.toNat + 10)
  else if 'A' ≤ c ∧ c ≤ 'F' then some (c.toNat - 'A'.toNat + 10)
  else none

/-- The value of `n` hexadecimal digits at the start of a text. -/
def hexNumber? : Nat → Nat → List Char → Option Nat
  | 0, value, _ => some value
  | n + 1, value, c :: cs => (hexValue? c).bind fun d => hexNumber? n (value * 16 + d) cs
  | _ + 1, _, [] => none

/-- The character of a number; the halves of characters beyond U+FFFF are none. -/
def charOf? (n : Nat) : Option Char := if n.isValidChar then some (Char.ofNat n) else none

/-- The character that an escape stands for, by the character after the backslash. -/
def escapedChar? : Char → Option Char
  | '0' => some '\x00'
  | 'a' => some '\x07'
  | 'b' => some '\x08'
  | 't' => some '\t'
  | '\t' => some '\t'
  | 'n' => some '\n'
  | 'v' => some '\x0b'
  | 'f' => some '\x0c'
  | 'r' => some '\r'
  | 'e' => some '\x1b'
  | ' ' => some ' '
  | '"' => some '"'
  | '/' => some '/'
  | '\\' => some '\\'
  | 'N' => some '\u0085'
  | '_' => some '\u00a0'
  | 'L' => some lineSeparator
  | 'P' => some paragraphSeparator
  | _ => none

/-- How many hexadecimal digits an escape has, by the character after the backslash. -/
def escapeDigits? : Char → Option Nat
  | 'x' => some 2
  | 'u' => some 4
  | 'U' => some 8
  | _ => none

/-- What an escape stands for, and how many characters it has after the backslash. -/
def escape? : List Char → Option (Char × Nat)
  | [] => none
  | c :: cs =>
    match escapeDigits? c with
    | some n => do return (← charOf? (← hexNumber? n 0 cs), n + 1)
    | none => (escapedChar? c).map fun e => (e, 1)

/-- Reads the characters of a quoted scalar up to a blank, a line break or the closing quote; an
escaped line break is passed over, which is told by the truth value. -/
def Place.quotedWord? (quote : Char) (p : Place) : Option (List Char × Bool × Place) :=
  match _h : p.rest with
  | [] => some ([], false, p)
  | c :: cs =>
    if isBlank c || isBreak c then some ([], false, p)
    else if quote == '\'' && c == '\'' && cs.head? == some '\'' then
      (quotedWord? quote (p.skip 2)).map fun (word, r) => ('\'' :: word, r)
    else if c == quote then some ([], false, p)
    else if quote == '"' && c == '\\' then
      if cs.head?.any isBreak then some ([], true, (p.skip 1).skipBreak)
      else
        match escape? cs with
        | none => none
        | some (e, n) => (quotedWord? quote (p.skip (n + 1))).map fun (word, r) => (e :: word, r)
    else (quotedWord? quote (p.skip 1)).map fun (word, r) => (c :: word, r)
termination_by p.rest.length
decreasing_by all_goals exact Place.length_skip_lt _ _h

/-- Reads what is left of a quoted scalar, and the closing quote. -/
def Place.quotedFrom? (quote : Char) (p : Place) : Option (List Char × Place) :=
  if p.isAtDocumentMark || p.rest.isEmpty then none
  else
    match p.quotedWord? quote with
    | none => none
    | some (word, escaped, q) =>
      if q.isAt quote then some (word, q.skip 1)
      else
        match q.readGap? 0 { broken := escaped } with
        | none => none
        | some (gap, r) =>
          if r.rest.length < p.rest.length then
            (quotedFrom? quote r).map fun (more, s) => (word ++ gap.text ++ more, s)
          else none
termination_by p.rest.length

/-- Reads a quoted scalar from its opening quote on. -/
def Place.readQuoted? (quote : Char) (p : Place) : Option (List Char × Place) :=
  (p.skip 1).quotedFrom? quote

/-! ### Block scalars -/

/-- What becomes of the line breaks at the end of a block scalar. -/
inductive Chomping where
  /-- None is kept. -/
  | strip
  /-- The first is kept. -/
  | clip
  /-- All are kept. -/
  | keep
  deriving DecidableEq

def Chomping.ofChar? : Char → Option Chomping
  | '+' => some .keep
  | '-' => some .strip
  | _ => none

/-- What stands after the indicator of a block scalar: its chomping and, unless it is to be found
out, its indentation, in either order. The count is that of the characters. -/
def blockHeader? : List Char → Option (Chomping × Option Nat × Nat)
  | c :: cs =>
    match Chomping.ofChar? c with
    | some chomping =>
      match cs with
      | d :: _ =>
        if d.isDigit then
          if d = '0' then none else some (chomping, some (d.toNat - '0'.toNat), 2)
        else some (chomping, none, 1)
      | [] => some (chomping, none, 1)
    | none =>
      if c.isDigit then
        if c = '0' then none
        else
          match cs.head?.bind Chomping.ofChar? with
          | some chomping => some (chomping, some (c.toNat - '0'.toNat), 2)
          | none => some (.clip, some (c.toNat - '0'.toNat), 1)
      else some (.clip, none, 0)
  | [] => some (.clip, none, 0)

/-- The place after the indentation of a line: up to the column `indent`, or as far as there are
blanks if that is 0. -/
def Place.skipIndent (indent : Nat) (p : Place) : Place :=
  let width := (p.rest.takeWhile (· == ' ')).length
  p.skip (if indent = 0 then width else min width (indent - p.column))

theorem Place.length_skipIndent_le (indent : Nat) (p : Place) :
    (p.skipIndent indent).rest.length ≤ p.rest.length := Place.length_skip_le _ p

/-- Reads the indentation and the empty lines before a line of a block scalar: the line breaks,
the deepest column, and the place. A tab within the indentation is refused. -/
def Place.blockGap? (indent deepest : Nat) (breaks : List Char) (p : Place) :
    Option (List Char × Nat × Place) :=
  let deepest := max deepest (p.skipIndent indent).column
  if (p.skipIndent indent).isAt '\t'
      && (indent == 0 || (p.skipIndent indent).column < indent) then none
  else
    match _h : (p.skipIndent indent).rest with
    | [] => some (breaks, deepest, p.skipIndent indent)
    | c :: _ =>
      if _hc : isBreak c then
        blockGap? indent deepest (breaks ++ breakText c) (p.skipIndent indent).skipBreak
      else some (breaks, deepest, p.skipIndent indent)
termination_by p.rest.length
decreasing_by
  have := Place.length_skipBreak_lt _h _hc
  have := Place.length_skipIndent_le indent p
  omega

/-- What stands between two lines of a block scalar. -/
structure LineGap where
  /-- The break of the line before. -/
  lastBreak : List Char := []
  /-- The breaks of the empty lines after it. -/
  emptyBreaks : List Char := []
  /-- Did the line before begin with a blank? -/
  ledByBlank : Bool := false

namespace LineGap

/-- What the gap folds to before another line: a single break between two lines that do not begin
with a blank is a blank. -/
def text (folded nextLedByBlank : Bool) (g : LineGap) : List Char :=
  if folded && g.lastBreak == ['\n'] && !g.ledByBlank && !nextLedByBlank then
    if g.emptyBreaks.isEmpty then [' '] else g.emptyBreaks
  else g.lastBreak ++ g.emptyBreaks

/-- What is left of the gap after the last line. -/
def chomped (chomping : Chomping) (g : LineGap) : List Char :=
  match chomping with
  | .strip => []
  | .clip => g.lastBreak
  | .keep => g.lastBreak ++ g.emptyBreaks

end LineGap

/-- Reads the lines of a block scalar that are indented to the column `indent`, after a gap. -/
def Place.blockLines? (folded : Bool) (chomping : Chomping) (indent : Nat) (g : LineGap)
    (p : Place) : Option (List Char × Place) :=
  if p.column ≠ indent then some (g.chomped chomping, p)
  else
    match p.rest with
    | [] => some (g.chomped chomping, p)
    | c :: _ =>
      let line := p.rest.takeWhile (!isBreak ·)
      let q := p.skip line.length
      let lastBreak := (q.rest.head?.map breakText).getD []
      match q.skipBreak.blockGap? indent 0 [] with
      | none => none
      | some (emptyBreaks, _, r) =>
        if r.rest.length < p.rest.length then
          (blockLines? folded chomping indent { lastBreak, emptyBreaks, ledByBlank := isBlank c }
            r).map fun (more, s) => (g.text folded (isBlank c) ++ line ++ more, s)
        else none
termination_by p.rest.length

/-- Reads a block scalar from its indicator on, inside a block of the given indentation. -/
def Place.readBlock? (folded : Bool) (parent : Int) (p : Place) : Option (List Char × Place) := do
  let (chomping, increment, width) ← blockHeader? (p.rest.drop 1)
  let q ← (p.skip (width + 1)).endLine?
  let given := increment.map fun n => if 0 ≤ parent then parent.toNat + n else n
  let (breaks, deepest, r) ← q.blockGap? (given.getD 0) 0 []
  let indent := given.getD (max (max deepest (parent + 1).toNat) 1)
  r.blockLines? folded chomping indent { emptyBreaks := breaks }

end ShopTables.Yaml
