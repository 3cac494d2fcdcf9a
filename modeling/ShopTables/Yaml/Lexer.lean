import ShopTables.Yaml.Token

/-!
# Finding the tokens of a YAML text

Two things are known of a text only later on. Whether a node is a key is known at the colon after
it, so the last node that may be one is remembered, and its key token is inserted when the colon
comes; a colon can only be waited for within the line and within 1024 characters. And the bounds of
collections outside brackets are known by the column alone, so the enclosing indentations are
kept. `tokens?` is the whole reading.
-/

namespace ShopTables.Yaml

/-! ### The state -/

/-- A node that may turn out to be a key. -/
structure KeyCandidate where
  /-- Is nothing but a key possible here? -/
  required : Bool
  /-- How many tokens precede the node. -/
  number : Nat
  index : Nat
  line : Nat
  column : Nat

/-- What has been found so far. -/
structure Lexer where
  place : Place
  /-- The tokens, the last one first. -/
  found : List Token := []
  /-- The indentation of the innermost collection outside brackets, -1 if there is none. -/
  indent : Int := -1
  /-- The indentations of the enclosing collections. -/
  outerIndents : List Int := []
  /-- The node of the innermost brackets that may be a key. -/
  candidate : Option KeyCandidate := none
  /-- Those of the enclosing brackets. -/
  outerCandidates : List (Option KeyCandidate) := []
  /-- May a key begin here? -/
  keyAllowed : Bool := true

namespace Lexer

def inFlow (lx : Lexer) : Bool := !lx.outerCandidates.isEmpty

/-- Adds a token and goes on to a place. -/
def add (t : Token) (place : Place) (lx : Lexer) : Lexer :=
  { lx with place, found := t :: lx.found }

/-- Adds a token of `n` characters. -/
def addMark (t : Token) (n : Nat) (lx : Lexer) : Lexer := lx.add t (lx.place.skip n)

/-- Inserts a token after the first `number` ones. -/
def insert (t : Token) (number : Nat) (lx : Lexer) : Lexer :=
  let (later, earlier) := lx.found.splitAt (lx.found.length - number)
  { lx with found := later ++ t :: earlier }

/-! ### Indentation -/

/-- Begins a collection after the first `number` tokens, if the column is right of the
indentation. -/
def openBlock (t : Token) (column number : Nat) (lx : Lexer) : Lexer :=
  if !lx.inFlow && lx.indent < column then
    { lx.insert t number with indent := column, outerIndents := lx.indent :: lx.outerIndents }
  else lx

def openBlockHere (t : Token) (lx : Lexer) : Lexer :=
  lx.openBlock t lx.place.column lx.found.length

/-- Ends the collections whose indentation is right of a column, the innermost first. -/
def closeFrom (column : Int) : Int → List Int → List Token → Int × List Int × List Token
  | indent, [], found => (indent, [], found)
  | indent, outer :: outers, found =>
    if column < indent then closeFrom column outer outers (.blockEnd :: found)
    else (indent, outer :: outers, found)

/-- Ends the collections whose indentation is right of a column. -/
def closeBlocks (column : Int) (lx : Lexer) : Lexer :=
  if lx.inFlow then lx
  else
    let (indent, outerIndents, found) := closeFrom column lx.indent lx.outerIndents lx.found
    { lx with indent, outerIndents, found }

/-! ### Keys -/

/-- Forgets the candidate, unless it has to be a key. -/
def dropCandidate? (lx : Lexer) : Option Lexer :=
  if lx.candidate.any (·.required) then none else some { lx with candidate := none }

/-- Remembers the node that begins here, if it may be a key. -/
def keepCandidate? (lx : Lexer) : Option Lexer :=
  if lx.keyAllowed then
    lx.dropCandidate?.map fun lx =>
      { lx with candidate := some {
          required := !lx.inFlow && lx.indent == lx.place.column
          number := lx.found.length
          index := lx.place.index
          line := lx.place.line
          column := lx.place.column } }
  else some lx

def isStale (p : Place) (k : KeyCandidate) : Bool := k.line < p.line || k.index + 1024 < p.index

/-- Forgets a candidate that is too far behind, unless it has to be a key. -/
def freshen? (p : Place) : Option KeyCandidate → Option (Option KeyCandidate)
  | none => some none
  | some k => if isStale p k then if k.required then none else some none else some (some k)

def freshenAll? (lx : Lexer) : Option Lexer := do
  return { lx with
    candidate := ← freshen? lx.place lx.candidate
    outerCandidates := ← lx.outerCandidates.mapM (freshen? lx.place) }

/-- Says whether a key may begin after the next token. -/
def allowKey (allowed : Bool) (lx : Lexer) : Lexer := { lx with keyAllowed := allowed }

/-! ### One token each -/

/-- Ends all collections before a directive or a mark of a document. -/
def leaveDocument? (lx : Lexer) : Option Lexer :=
  (lx.closeBlocks (-1)).dropCandidate?.map (allowKey false)

def directive? (lx : Lexer) : Option Lexer := do
  let lx ← lx.leaveDocument?
  let (t, p) ← lx.place.readDirective?
  return lx.add t p

def documentMark? (t : Token) (lx : Lexer) : Option Lexer := lx.leaveDocument?.map (addMark t 3)

def openFlow? (t : Token) (lx : Lexer) : Option Lexer := do
  let lx ← lx.keepCandidate?
  return { lx.addMark t 1 with
    candidate := none
    outerCandidates := lx.candidate :: lx.outerCandidates
    keyAllowed := true }

def closeFlow? (t : Token) (lx : Lexer) : Option Lexer := do
  let lx ← lx.dropCandidate?
  let (candidate, outerCandidates) :=
    match lx.outerCandidates with
    | outer :: outers => (outer, outers)
    | [] => (lx.candidate, [])
  return { lx.addMark t 1 with candidate, outerCandidates, keyAllowed := false }

def flowEntry? (lx : Lexer) : Option Lexer := do
  let lx ← lx.dropCandidate?
  return (lx.allowKey true).addMark .flowEntry 1

def blockEntry? (lx : Lexer) : Option Lexer := do
  guard (lx.inFlow || lx.keyAllowed)
  let lx ← (lx.openBlockHere .blockSequence).dropCandidate?
  return (lx.allowKey true).addMark .blockEntry 1

def key? (lx : Lexer) : Option Lexer := do
  guard (lx.inFlow || lx.keyAllowed)
  let lx ← (lx.openBlockHere .blockMapping).dropCandidate?
  return (lx.allowKey (!lx.inFlow)).addMark .key 1

/-- The colon of a value; it makes the candidate a key. -/
def value? (lx : Lexer) : Option Lexer := do
  match lx.candidate with
  | some k =>
    let lx := (lx.insert .key k.number).openBlock .blockMapping k.column k.number
    return ({ lx with candidate := none }.allowKey false).addMark .value 1
  | none =>
    guard (lx.inFlow || lx.keyAllowed)
    return ((lx.openBlockHere .blockMapping).allowKey (!lx.inFlow)).addMark .value 1

/-- A token that may begin a node that is a key. -/
def nodeStart? (read? : Place → Option (Token × Place)) (lx : Lexer) : Option Lexer := do
  let lx ← lx.keepCandidate?
  let (t, p) ← read? lx.place
  return (lx.allowKey false).add t p

def quoted? (style : ScalarStyle) (quote : Char) (lx : Lexer) : Option Lexer :=
  lx.nodeStart? fun p => (p.readQuoted? quote).map fun (text, q) => (.scalar style text, q)

def block? (folded : Bool) (lx : Lexer) : Option Lexer := do
  let lx ← lx.dropCandidate?
  let (text, p) ← lx.place.readBlock? folded lx.indent
  return (lx.allowKey true).add (.scalar (if folded then .folded else .literal) text) p

/-- A plain scalar; a line that ends with it lets a key begin. -/
def plain? (lx : Lexer) : Option Lexer := do
  let lx ← lx.keepCandidate?
  let (text, broken, p) ← lx.place.readPlain? lx.inFlow lx.indent
  return (lx.allowKey broken).add (.scalar .plain text) p

/-! ### All tokens -/

/-- The characters that begin no plain scalar, unless what follows them says otherwise. -/
def indicators : List Char :=
  ['-', '?', ':', ',', '[', ']', '{', '}', '#', '&', '*', '!', '|', '>', '\'', '"', '%', '@',
    '\x60']

def startsPlain (inFlow : Bool) : List Char → Bool
  | [] => false
  | c :: cs =>
    !(isBlank c || isBreak c || indicators.contains c)
      || (c == '-' && !cs.head?.any isBlank)
      || (!inFlow && (c == '?' || c == ':') && !endsWord cs)

/-- Adds the next token, which begins at the place. -/
def token? (lx : Lexer) : Option Lexer :=
  let p := lx.place
  let standsAlone := endsWord (p.rest.drop 1)
  if p.column == 0 && p.isAt '%' then lx.directive?
  else if p.isAtMark '-' then lx.documentMark? .documentStart
  else if p.isAtMark '.' then lx.documentMark? .documentEnd
  else if p.isAt '[' then lx.openFlow? .flowSequence
  else if p.isAt '{' then lx.openFlow? .flowMapping
  else if p.isAt ']' then lx.closeFlow? .flowSequenceEnd
  else if p.isAt '}' then lx.closeFlow? .flowMappingEnd
  else if p.isAt ',' then lx.flowEntry?
  else if p.isAt '-' && standsAlone then lx.blockEntry?
  else if p.isAt '?' && (lx.inFlow || standsAlone) then lx.key?
  else if p.isAt ':' && (lx.inFlow || standsAlone) then lx.value?
  else if p.isAt '*' then lx.nodeStart? fun p => p.readName?.map fun (n, q) => (.reference n, q)
  else if p.isAt '&' then lx.nodeStart? fun p => p.readName?.map fun (n, q) => (.anchor n, q)
  else if p.isAt '!' then lx.nodeStart? (·.readTag? lx.inFlow)
  else if p.isAt '|' && !lx.inFlow then lx.block? false
  else if p.isAt '>' && !lx.inFlow then lx.block? true
  else if p.isAt '\'' then lx.quoted? .singleQuoted '\''
  else if p.isAt '"' then lx.quoted? .doubleQuoted '"'
  else if startsPlain lx.inFlow p.rest then lx.plain?
  else none

end Lexer

/-- The place after the byte order mark, if the line begins with one. The mark takes up a column. -/
def Place.skipByteOrderMark (p : Place) : Place :=
  if p.column == 0 && p.isAt '\uFEFF' then p.skip 1 else p

/-- The place after the blanks and the comment that may stand before a token. -/
def Place.skipBlanks (tabs : Bool) (p : Place) : Place :=
  (p.skipByteOrderMark.skipWhile fun c => c == ' ' || (tabs && c == '\t')).skipComment

theorem Place.length_skipBlanks_le (tabs : Bool) (p : Place) :
    (p.skipBlanks tabs).rest.length ≤ p.rest.length := by
  refine Nat.le_trans (length_skipComment_le _) (Nat.le_trans (length_skipWhile_le _ _) ?_)
  unfold skipByteOrderMark
  split
  · exact length_skip_le 1 p
  · exact Nat.le_refl _

/-- Goes on to the next token. A tab is passed over only where no key may begin, and the start of a
line outside brackets lets one begin. -/
def Place.skipToToken (inFlow keyAllowed : Bool) (p : Place) : Place × Bool :=
  match _h : (p.skipBlanks (inFlow || !keyAllowed)).rest with
  | [] => (p.skipBlanks (inFlow || !keyAllowed), keyAllowed)
  | c :: _ =>
    if _hc : isBreak c then
      skipToToken inFlow (keyAllowed || !inFlow) (p.skipBlanks (inFlow || !keyAllowed)).skipBreak
    else (p.skipBlanks (inFlow || !keyAllowed), keyAllowed)
termination_by p.rest.length
decreasing_by
  exact Nat.lt_of_lt_of_le (Place.length_skipBreak_lt _h _hc) (Place.length_skipBlanks_le _ p)

namespace Lexer

/-- Goes on to the next token, and ends the collections that it is not in. -/
def advance? (lx : Lexer) : Option Lexer := do
  let (place, keyAllowed) := lx.place.skipToToken lx.inFlow lx.keyAllowed
  let lx ← { lx with place, keyAllowed }.freshenAll?
  return lx.closeBlocks lx.place.column

/-- All tokens, once there is nothing left of the text. -/
def finish? (lx : Lexer) : Option (List Token) :=
  (lx.closeBlocks (-1)).dropCandidate?.map (·.found.reverse)

def run? (lx : Lexer) : Option (List Token) :=
  match lx.advance? with
  | none => none
  | some lx' =>
    if lx'.place.rest.isEmpty then lx'.finish?
    else
      match lx'.token? with
      | none => none
      | some lx'' => if lx''.place.rest.length < lx.place.rest.length then run? lx'' else none
termination_by lx.place.rest.length

end Lexer

def tokens? (text : List Char) : Option (List Token) :=
  if text.all isAllowed then Lexer.run? { place := Place.start text } else none

end ShopTables.Yaml
