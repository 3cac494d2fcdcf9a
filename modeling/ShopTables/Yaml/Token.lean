import ShopTables.Yaml.Scalar

/-!
# The tokens of a YAML text

A text is a sequence of tokens: directives and marks of documents, the bounds and separators of
collections, the properties of nodes, references to nodes, and scalars. The bounds of collections
that are shown by indentation alone are tokens as well. Directives, names and tags are read here;
scalars are read in their own module.
-/

namespace ShopTables.Yaml

/-- A token. -/
inductive Token where
  /-- The version of the format that a document asks for. -/
  | version (major minor : Nat)
  /-- What a handle of tags stands for in a document. -/
  | tagHandle (handle start : List Char)
  | documentStart
  | documentEnd
  /-- A sequence shown by indentation begins. -/
  | blockSequence
  /-- A mapping shown by indentation begins. -/
  | blockMapping
  /-- A collection shown by indentation ends. -/
  | blockEnd
  | flowSequence
  | flowSequenceEnd
  | flowMapping
  | flowMappingEnd
  /-- An item of a block sequence follows. -/
  | blockEntry
  /-- Another item or entry of a collection in brackets follows. -/
  | flowEntry
  | key
  | value
  /-- The node that bears the name stands here again. -/
  | reference (name : List Char)
  /-- The next node bears the name. -/
  | anchor (name : List Char)
  | tag (handle suffix : List Char)
  | scalar (style : ScalarStyle) (text : List Char)
  deriving DecidableEq

/-! ### Names -/

/-- The characters that may follow the name of a node, blanks and line breaks apart. -/
def nameEnders : List Char := ['?', ':', ',', ']', '}', '%', '@', '\x60']

/-- Reads the name that follows an indicator of one character. -/
def Place.readName? (p : Place) : Option (List Char × Place) :=
  let name := (p.rest.drop 1).takeWhile isWord
  let q := p.skip (name.length + 1)
  if name.isEmpty then none
  else if endsWord q.rest || q.rest.head?.any nameEnders.contains then some (name, q)
  else none

/-! ### Tags -/

/-- The characters of an address that are neither letters nor digits. -/
def uriPunctuation : List Char :=
  [';', '/', '?', ':', '@', '&', '=', '+', '$', '.', '!', '~', '*', '\'', '(', ')']

/-- May a character stand for itself in an address? Between angle brackets, more may. -/
def isUri (bracketed : Bool) (c : Char) : Bool :=
  isWord c || uriPunctuation.contains c || (bracketed && (c == ',' || c == '[' || c == ']'))

/-- How many octets follow the first one of a character. -/
def octetsAfter? (octet : Nat) : Option Nat :=
  if octet < 0x80 then some 0
  else if octet / 32 = 6 then some 1
  else if octet / 16 = 14 then some 2
  else if octet / 8 = 30 then some 3
  else none

/-- Reads an address octet by octet: what it spells and how many characters it has. An octet may be
written by its number, and the octets of one character must all be; `pending` of them are due. -/
def uriText? (bracketed : Bool) : Nat → List Char → Option (List Char × Nat)
  | pending, '%' :: a :: b :: cs => do
    let octet := (← hexValue? a) * 16 + (← hexValue? b)
    let pending ←
      if pending = 0 then octetsAfter? octet
      else if octet / 64 = 2 then some (pending - 1)
      else none
    let (text, n) ← uriText? bracketed pending cs
    return (Char.ofNat octet :: text, n + 3)
  | pending, c :: cs =>
    if pending ≠ 0 || c == '%' then none
    else if isUri bracketed c then (uriText? bracketed 0 cs).map fun (text, n) => (c :: text, n + 1)
    else some ([], 0)
  | pending, [] => if pending = 0 then some ([], 0) else none

/-- What counts of an address: all that precedes the first null character. -/
def effective (text : List Char) : List Char := text.takeWhile (· != '\x00')

/-- Reads an address of at least one character. -/
def Place.readUri? (bracketed : Bool) (p : Place) : Option (List Char × Place) := do
  let (text, n) ← uriText? bracketed 0 p.rest
  guard (n ≠ 0)
  return (effective text, p.skip n)

def Place.readBracketedTag? (p : Place) : Option (Token × Place) := do
  let (text, q) ← (p.skip 2).readUri? true
  guard (q.isAt '>')
  return (.tag [] text, q.skip 1)

/-- Reads a tag that may begin with a handle; the exclamation mark alone is a tag by itself. -/
def Place.readHandledTag? (p : Place) : Option (Token × Place) := do
  let word := (p.rest.drop 1).takeWhile isWord
  let q := p.skip (word.length + 1)
  if q.isAt '!' then
    let (text, r) ← (q.skip 1).readUri? false
    return (.tag ('!' :: word ++ ['!']) text, r)
  else
    let (text, n) ← uriText? false 0 q.rest
    let suffix := word ++ effective text
    return (if suffix.isEmpty then .tag [] ['!'] else .tag ['!'] suffix, q.skip n)

def Place.readTag? (inFlow : Bool) (p : Place) : Option (Token × Place) := do
  let (t, q) ← if (p.skip 1).isAt '<' then p.readBracketedTag? else p.readHandledTag?
  guard (endsWord q.rest || (inFlow && q.isAt ','))
  return (t, q)

/-! ### Directives -/

def Place.readVersionNumber? (p : Place) : Option (Nat × Place) :=
  let digits := p.rest.takeWhile Char.isDigit
  if digits.isEmpty || 9 < digits.length then none
  else some (digits.foldl (fun n d => n * 10 + (d.toNat - '0'.toNat)) 0, p.skip digits.length)

/-- Reads a version: two numbers with a point between them. -/
def Place.readVersion? (p : Place) : Option (Token × Place) := do
  let (major, q) ← p.readVersionNumber?
  guard (q.isAt '.')
  let (minor, r) ← (q.skip 1).readVersionNumber?
  return (.version major minor, r)

/-- Reads a handle of tags and what it stands for. -/
def Place.readTagHandle? (p : Place) : Option (Token × Place) := do
  guard (p.isAt '!')
  let word := (p.rest.drop 1).takeWhile isWord
  let q := p.skip (word.length + 1)
  let closed := q.isAt '!'
  guard (closed || word.isEmpty)
  let q := if closed then q.skip 1 else q
  guard (q.rest.head?.any isBlank)
  let (start, r) ← (q.skipWhile isBlank).readUri? true
  guard (endsWord r.rest)
  return (.tagHandle (if closed then '!' :: word ++ ['!'] else ['!']) start, r)

/-- Reads a directive from its percent sign on, and the rest of its line. -/
def Place.readDirective? (p : Place) : Option (Token × Place) := do
  let name := (p.rest.drop 1).takeWhile isWord
  let q := p.skip (name.length + 1)
  guard (endsWord q.rest)
  let q := q.skipWhile isBlank
  let (t, r) ←
    if name = ['Y', 'A', 'M', 'L'] then q.readVersion?
    else if name = ['T', 'A', 'G'] then q.readTagHandle?
    else none
  return (t, ← r.endLine?)

end ShopTables.Yaml
