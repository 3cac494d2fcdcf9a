import ShopTables.Yaml.Lexer

/-!
# The documents of a YAML text

A document is a tree of nodes; a node may bear a name, and a reference by that name stands for it
elsewhere, also inside itself, so references stay in the tree and the document says what they stand
for. Where a node is missing, it is an empty plain scalar. `document?` reads the tokens of a text
with one document.
-/

namespace ShopTables.Yaml

/-- A node of a document. -/
inductive Node where
  | scalar (style : ScalarStyle) (tag : Option (List Char)) (text : List Char)
  | sequence (items : List Node)
  | mapping (entries : List (Node × Node))
  /-- The node with this number stands here again. -/
  | reference (number : Nat)

def Node.missing : Node := .scalar .plain none []

/-- The named nodes by their numbers, the last begun first; none for a node that is not complete. -/
abbrev NamedNodes := List (Nat × Option Node)

/-- A document. -/
structure Document where
  root : Node
  named : NamedNodes

/-- The node itself, or what it refers to. -/
def Document.resolve? (d : Document) : Node → Option Node
  | .reference number => (d.named.lookup number).join
  | node => some node

/-! ### The state of a reading -/

/-- What is left of the tokens, and what is known of names. -/
structure NodeState where
  tokens : List Token
  /-- What the handles of tags stand for. -/
  handles : List (List Char × List Char)
  /-- The number of each name; one that is given again gets a new number. -/
  numbers : List (List Char × Nat) := []
  named : NamedNodes := []

abbrev NodeStep := StateT NodeState Option

namespace NodeStep

/-- The next token, which stays. -/
def peek : NodeStep (Option Token) := return (← get).tokens.head?

def isAt (ts : List Token) : NodeStep Bool := return (← peek).any ts.contains

def skip : NodeStep Unit := modify fun s => { s with tokens := s.tokens.tail }

/-- Goes past the next token, which must be this one. -/
def expect (t : Token) : NodeStep Unit := do
  guard (← isAt [t])
  skip

/-- Goes past the next token if it is this one, and says whether it was. -/
def accept (t : Token) : NodeStep Bool := do
  if ← isAt [t] then
    skip
    return true
  else return false

/-- The name of the next node, if it bears one. -/
def anchor : NodeStep (Option (List Char)) := do
  match ← peek with
  | some (.anchor name) =>
    skip
    return some name
  | _ => return none

/-- The tag of the next node, if it has one; its handle must be known. -/
def tag : NodeStep (Option (List Char)) := do
  match ← peek with
  | some (.tag handle suffix) =>
    skip
    if handle.isEmpty then return some suffix
    else
      let start ← ((← get).handles.lookup handle : Option (List Char))
      return some (start ++ suffix)
  | _ => return none

/-- The name and the tag of the next node, in either order. -/
def properties : NodeStep (Option (List Char) × Option (List Char)) := do
  match ← anchor with
  | some name => return (some name, ← tag)
  | none =>
    let t ← tag
    return (← if t.isSome then anchor else pure none, t)

/-- Gives a name its number, which counts the names before it. -/
def beginNamed (name : List Char) : NodeStep Unit :=
  modify fun s =>
    let number := s.numbers.length
    { s with
      numbers := (name, number) :: s.numbers.filter (·.1 != name)
      named := (number, none) :: s.named }

/-- Completes the named node that began after `before` others. -/
def endNamed (before : Nat) (node : Node) : NodeStep Unit :=
  modify fun s =>
    let i := s.named.length - 1 - before
    { s with named := s.named.modify i fun (number, _) => (number, some node) }

def naming (name : Option (List Char)) (read : NodeStep Node) : NodeStep Node := do
  match name with
  | none => read
  | some name =>
    let before := (← get).named.length
    beginNamed name
    let node ← read
    endNamed before node
    return node

/-- Reads a node, unless one of these tokens comes next. -/
def unlessAt (ts : List Token) (read : NodeStep Node) : NodeStep Node := do
  if ← isAt ts then return .missing else read

/-- Reads a value after its colon, if there is one. -/
def valueUnlessAt (ts : List Token) (read : NodeStep Node) : NodeStep Node := do
  if ← accept .value then unlessAt ts read else return .missing

end NodeStep

/-! ### Nodes -/

open NodeStep in
mutual

/-- Reads a node. A collection that is shown by indentation may stand only where `block` says so,
and a sequence as far left as its key only where `hanging` says so. -/
def readNode : (fuel : Nat) → (block hanging : Bool) → NodeStep Node
  | 0, _, _ => failure
  | fuel + 1, block, hanging => do
    match ← peek with
    | some (.reference name) =>
      skip
      let number ← ((← get).numbers.lookup name : Option Nat)
      return .reference number
    | _ =>
      let (name, tag) ← properties
      naming name do
        match ← peek with
        | some (.scalar style text) =>
          skip
          return .scalar style tag text
        | some .flowSequence =>
          skip
          return .sequence (← readFlowItems fuel true)
        | some .flowMapping =>
          skip
          return .mapping (← readFlowEntries fuel true)
        | some .blockSequence =>
          guard block
          skip
          return .sequence (← readItems fuel false)
        | some .blockMapping =>
          guard block
          skip
          return .mapping (← readEntries fuel)
        | some .blockEntry =>
          if hanging then return .sequence (← readItems fuel true)
          else
            guard (name.isSome || tag.isSome)
            return .scalar .plain tag []
        | _ =>
          guard (name.isSome || tag.isSome)
          return .scalar .plain tag []

/-- Reads the items of a sequence that is shown by indentation. -/
def readItems : (fuel : Nat) → (hanging : Bool) → NodeStep (List Node)
  | 0, _ => failure
  | fuel + 1, hanging => do
    if ← accept .blockEntry then
      let item ← unlessAt [.blockEntry, .key, .value, .blockEnd] (readNode fuel true false)
      return item :: (← readItems fuel hanging)
    else
      unless hanging do expect .blockEnd
      return []

/-- Reads the entries of a mapping that is shown by indentation. -/
def readEntries : (fuel : Nat) → NodeStep (List (Node × Node))
  | 0 => failure
  | fuel + 1 => do
    if ← accept .key then
      let stops := [.key, .value, .blockEnd]
      let key ← unlessAt stops (readNode fuel true true)
      let value ← valueUnlessAt stops (readNode fuel true true)
      return (key, value) :: (← readEntries fuel)
    else
      expect .blockEnd
      return []

def readFlowItems : (fuel : Nat) → (first : Bool) → NodeStep (List Node)
  | 0, _ => failure
  | fuel + 1, first => do
    if ← accept .flowSequenceEnd then return []
    else
      unless first do expect .flowEntry
      if ← accept .flowSequenceEnd then return []
      else
        let item ← if ← accept .key then readPair fuel else readNode fuel false false
        return item :: (← readFlowItems fuel false)

/-- Reads a mapping of one entry that stands in a sequence in brackets. A key that is missing takes
the place of the token that shows it. -/
def readPair : (fuel : Nat) → NodeStep Node
  | 0 => failure
  | fuel + 1 => do
    let key ←
      if ← isAt [.value, .flowEntry, .flowSequenceEnd] then do
        skip
        pure .missing
      else readNode fuel false false
    let value ← valueUnlessAt [.flowEntry, .flowSequenceEnd] (readNode fuel false false)
    return .mapping [(key, value)]

/-- Reads the entries of a mapping in brackets; an entry without a mark is a key alone. -/
def readFlowEntries : (fuel : Nat) → (first : Bool) → NodeStep (List (Node × Node))
  | 0, _ => failure
  | fuel + 1, first => do
    if ← accept .flowMappingEnd then return []
    else
      unless first do expect .flowEntry
      if ← accept .flowMappingEnd then return []
      else
        let entry ←
          if ← accept .key then do
            let key ←
              unlessAt [.value, .flowEntry, .flowMappingEnd] (readNode fuel false false)
            let value ← valueUnlessAt [.flowEntry, .flowMappingEnd] (readNode fuel false false)
            pure (key, value)
          else do
            let key ← readNode fuel false false
            pure (key, .missing)
        return entry :: (← readFlowEntries fuel false)

end

/-! ### Documents -/

def defaultHandles : List (List Char × List Char) :=
  [(['!'], ['!']), (['!', '!'], "tag:yaml.org,2002:".toList)]

/-- Reads the directives before a document: at most one version, which must be 1.1 or 1.2, and each
handle at most once. -/
def readDirectives? (versionSeen : Bool) (handles : List (List Char × List Char)) :
    List Token → Option (List (List Char × List Char) × List Token)
  | .version major minor :: ts =>
    if versionSeen || major != 1 || (minor != 1 && minor != 2) then none
    else readDirectives? true handles ts
  | .tagHandle handle start :: ts =>
    if (handles.lookup handle).isSome then none
    else readDirectives? versionSeen (handles ++ [(handle, start)]) ts
  | ts => some (handles, ts)

/-- Does a token begin the directives before a document? -/
def Token.isDirective : Token → Bool
  | .version _ _ | .tagHandle _ _ => true
  | _ => false

/-- Reads the root of a document. After a start mark it may be missing. -/
def readRoot (fuel : Nat) (marked : Bool) : NodeStep Node := do
  match ← NodeStep.peek with
  | none => if marked then return .missing else failure
  | some t =>
    if marked && (t.isDirective || t == .documentStart || t == .documentEnd) then return .missing
    else readNode fuel true false

/-- Reads the tokens of a text with one document. A node takes up to four steps per token. -/
def document? (tokens : List Token) : Option Document := do
  let (handles, ts) ← readDirectives? false [] tokens
  let marked := ts.head? == some .documentStart
  guard (marked || ts.length = tokens.length)
  let (root, s) ← (readRoot (4 * tokens.length + 4) marked).run
    { tokens := if marked then ts.tail else ts, handles := handles ++ defaultHandles }
  guard (s.tokens.all (· == .documentEnd))
  return { root, named := s.named }

end ShopTables.Yaml
