import ShopTables.Text.Utf8

/-!
# Outlines — what the JSON grammar alone says about a text

```
    bytes   --Utf8.decode-->   characters and faults   --Outline.read?-->   Outline
```

An outline has the structure of a document with its strings and numbers still as written: escapes
of half a character, digits without end, bytes that are no text. Whether those mean anything is
asked only of the parts that are used (`Json.ofOutline?`), so a part that nobody looks at may hold
what a value may not. The reader takes the whole text: blanks may follow the value, nothing else.
-/

namespace ShopTables.Json

/-- A piece of a string as written. -/
inductive Piece where
  /-- A character, written itself or by a short escape. -/
  | char (c : Char)
  /-- A sixteen-bit unit, written in hexadecimal digits. -/
  | unit (u : Nat)
  /-- Bytes that are no character. -/
  | fault
  deriving DecidableEq

/-- A number as written. -/
structure Literal where
  negative : Bool
  whole : List Char
  /-- The digits after the point, if there is one. -/
  fraction : Option (List Char)
  /-- The exponent's sign (negative or not) and digits, if there is one. -/
  exponent : Option (Bool × List Char)
  deriving DecidableEq

/-- A document's structure, with strings and numbers as written. -/
inductive Outline where
  | null
  | bool (b : Bool)
  | number (l : Literal)
  | string (pieces : List Piece)
  | array (items : List Outline)
  | object (members : List (List Piece × Outline))

namespace Outline

/-- What the reader reads: characters, and `none` for each fault of the encoding. -/
abbrev Input := List (Option Char)

/-! ### Blanks, words, digits -/

/-- The blanks that may stand between the parts of a document. -/
def isBlank : Option Char → Bool
  | some c => c == ' ' || c == '\n' || c == '\t' || c == '\r'
  | none => false

def skipBlanks (input : Input) : Input := input.dropWhile isBlank

theorem length_skipBlanks_le (input : Input) : (skipBlanks input).length ≤ input.length :=
  (List.dropWhile_suffix isBlank).length_le

def readWord : List Char → Input → Option Input
  | [], input => some input
  | w :: ws, some c :: rest => if w = c then readWord ws rest else none
  | _ :: _, _ => none

theorem length_readWord_le {w : List Char} {input r : Input} (h : readWord w input = some r) :
    r.length ≤ input.length := by
  fun_induction readWord w input <;> simp_all
  omega

/-- The digits at the start, and what follows them. -/
def readDigits : Input → List Char × Input
  | some c :: rest =>
    if c.isDigit then ((c :: (readDigits rest).1), (readDigits rest).2) else ([], some c :: rest)
  | input => ([], input)

theorem length_readDigits_le (input : Input) : (readDigits input).2.length ≤ input.length := by
  fun_induction readDigits input <;> simp_all
  omega

/-! ### Numbers -/

/-- The exponent of a number, if one follows. An `e` without digits is an error. -/
def readExponent (input : Input) : Option (Option (Bool × List Char) × Input) :=
  match input with
  | some c :: rest =>
    if c = 'e' ∨ c = 'E' then
      let (negative, rest) :=
        match rest with
        | some '+' :: more => (false, more)
        | some '-' :: more => (true, more)
        | _ => (false, rest)
      let (digits, rest) := readDigits rest
      if digits.isEmpty then none else some (some (negative, digits), rest)
    else some (none, input)
  | _ => some (none, input)

/-- The digits after a point, if one follows. A point without digits is an error. -/
def readFraction (input : Input) : Option (Option (List Char) × Input) :=
  match input with
  | some '.' :: rest =>
    let (digits, rest) := readDigits rest
    if digits.isEmpty then none else some (some digits, rest)
  | _ => some (none, input)

/-- A number after its sign: digits without a needless zero in front, then fraction and
exponent. -/
def readNumber (negative : Bool) (input : Input) : Option (Literal × Input) :=
  let (whole, rest) := readDigits input
  match whole with
  | [] => none
  | '0' :: _ :: _ => none
  | _ => do
    let (fraction, rest) ← readFraction rest
    let (exponent, rest) ← readExponent rest
    return (⟨negative, whole, fraction, exponent⟩, rest)

theorem length_readExponent_le {input r : Input} {e : Option (Bool × List Char)}
    (h : readExponent input = some (e, r)) : r.length ≤ input.length := by
  unfold readExponent at h
  have := length_readDigits_le
  grind

theorem length_readFraction_le {input r : Input} {f : Option (List Char)}
    (h : readFraction input = some (f, r)) : r.length ≤ input.length := by
  unfold readFraction at h
  have := length_readDigits_le
  grind

theorem length_readDigits_lt {input : Input} (h : (readDigits input).1 ≠ []) :
    (readDigits input).2.length < input.length := by
  cases input with
  | nil => simp [readDigits] at h
  | cons o rest =>
    cases o with
    | none => simp [readDigits] at h
    | some c =>
      have := length_readDigits_le rest
      by_cases hc : c.isDigit <;> simp [readDigits, hc] at h ⊢
      omega

theorem length_readNumber_lt {negative : Bool} {input r : Input} {l : Literal}
    (h : readNumber negative input = some (l, r)) : r.length < input.length := by
  have hd := @length_readDigits_lt input
  have hf := @length_readFraction_le
  have he := @length_readExponent_le
  unfold readNumber at h
  generalize readDigits input = p at h hd
  obtain ⟨whole, rest⟩ := p
  dsimp only at h hd
  split at h
  · simp at h
  · simp at h
  · rename_i hw _
    specialize hd hw
    cases hfr : readFraction rest with
    | none => simp [hfr] at h
    | some p =>
      obtain ⟨f, r₁⟩ := p
      cases hex : readExponent r₁ with
      | none => simp [hfr, hex] at h
      | some q =>
        obtain ⟨e, r₂⟩ := q
        simp [hfr, hex] at h
        have := hf hfr
        have := he hex
        obtain ⟨_, rfl⟩ := h
        omega

/-! ### Strings -/

def hexDigit? (c : Char) : Option Nat :=
  if '0' ≤ c ∧ c ≤ '9' then some (c.toNat - '0'.toNat)
  else if 'a' ≤ c ∧ c ≤ 'f' then some (c.toNat - 'a'.toNat + 10)
  else if 'A' ≤ c ∧ c ≤ 'F' then some (c.toNat - 'A'.toNat + 10)
  else none

def hexUnit? (a b c d : Char) : Option Nat := do
  let a ← hexDigit? a
  let b ← hexDigit? b
  let c ← hexDigit? c
  let d ← hexDigit? d
  return ((a * 16 + b) * 16 + c) * 16 + d

def shortEscape? : Char → Option Char
  | '"' => some '"'
  | '\\' => some '\\'
  | '/' => some '/'
  | 'b' => some '\x08'
  | 'f' => some '\x0c'
  | 'n' => some '\n'
  | 'r' => some '\r'
  | 't' => some '\t'
  | _ => none

/-- The pieces up to the closing quote, and what follows it. -/
def readString : Input → Option (List Piece × Input)
  | [] => none
  | none :: rest => (readString rest).map fun (ps, r) => (.fault :: ps, r)
  | some '"' :: rest => some ([], rest)
  | some '\\' :: some 'u' :: some a :: some b :: some c :: some d :: rest => do
    let u ← hexUnit? a b c d
    let (ps, r) ← readString rest
    return (.unit u :: ps, r)
  | some '\\' :: some e :: rest => do
    let c ← shortEscape? e
    let (ps, r) ← readString rest
    return (.char c :: ps, r)
  | some c :: rest =>
    if c = '\\' ∨ c.toNat < 0x20 then none
    else (readString rest).map fun (ps, r) => (.char c :: ps, r)

theorem length_readString_lt {input r : Input} {ps : List Piece}
    (h : readString input = some (ps, r)) : r.length < input.length := by
  fun_induction readString input generalizing ps r with
  | case1 => simp at h
  | case2 rest ih =>
    obtain ⟨⟨ps', r'⟩, h₁, h₂⟩ := Option.map_eq_some_iff.1 h
    have := ih h₁
    simp at h₂ ⊢
    obtain ⟨_, rfl⟩ := h₂
    omega
  | case3 rest => simp_all
  | case4 a b c d rest ih =>
    simp only [Option.bind_eq_bind, Option.bind_eq_some_iff, Option.pure_def] at h
    obtain ⟨u, _, ⟨ps', r'⟩, h₁, h₂⟩ := h
    have := ih h₁
    simp at h₂ ⊢
    obtain ⟨_, rfl⟩ := h₂
    omega
  | case5 e rest _ ih =>
    simp only [Option.bind_eq_bind, Option.bind_eq_some_iff, Option.pure_def] at h
    obtain ⟨u, _, ⟨ps', r'⟩, h₁, h₂⟩ := h
    have := ih h₁
    simp at h₂ ⊢
    obtain ⟨_, rfl⟩ := h₂
    omega
  | case6 => simp at h
  | case7 c rest _ _ _ _ ih =>
    obtain ⟨⟨ps', r'⟩, h₁, h₂⟩ := Option.map_eq_some_iff.1 h
    have := ih h₁
    simp at h₂ ⊢
    obtain ⟨_, rfl⟩ := h₂
    omega

/-! ### Values -/

mutual

/-- One value, and what follows it. -/
def readValue (input : Input) : Option (Outline × { r : Input // r.length < input.length }) :=
  have hs := length_skipBlanks_le input
  match hi : skipBlanks input with
  | some '[' :: rest =>
    have hr := length_skipBlanks_le rest
    match hc : skipBlanks rest with
    | some ']' :: r => some (.array [], ⟨r, by simp [hi] at hs; simp [hc] at hr; omega⟩)
    | _ =>
      match readItems rest with
      | some (items, ⟨r, h⟩) => some (.array items, ⟨r, by simp [hi] at hs; omega⟩)
      | none => none
  | some '{' :: rest =>
    have hr := length_skipBlanks_le rest
    match hc : skipBlanks rest with
    | some '}' :: r => some (.object [], ⟨r, by simp [hi] at hs; simp [hc] at hr; omega⟩)
    | _ =>
      match readMembers rest with
      | some (members, ⟨r, h⟩) => some (.object members, ⟨r, by simp [hi] at hs; omega⟩)
      | none => none
  | some '"' :: rest =>
    match h : readString rest with
    | some (ps, r) =>
      some (.string ps, ⟨r, by have := length_readString_lt h; simp [hi] at hs; omega⟩)
    | none => none
  | some 'n' :: rest =>
    match h : readWord "ull".toList rest with
    | some r => some (.null, ⟨r, by have := length_readWord_le h; simp [hi] at hs; omega⟩)
    | none => none
  | some 't' :: rest =>
    match h : readWord "rue".toList rest with
    | some r => some (.bool true, ⟨r, by have := length_readWord_le h; simp [hi] at hs; omega⟩)
    | none => none
  | some 'f' :: rest =>
    match h : readWord "alse".toList rest with
    | some r => some (.bool false, ⟨r, by have := length_readWord_le h; simp [hi] at hs; omega⟩)
    | none => none
  | some '-' :: rest =>
    match h : readNumber true rest with
    | some (l, r) =>
      some (.number l, ⟨r, by have := length_readNumber_lt h; simp [hi] at hs; omega⟩)
    | none => none
  | other =>
    match h : readNumber false other with
    | some (l, r) => some (.number l, ⟨r, by have := length_readNumber_lt h; rw [← hi] at *; omega⟩)
    | none => none
termination_by (input.length, 0)
decreasing_by all_goals (simp [hi] at hs; omega)

/-- The items of an array up to its closing bracket, at least one. -/
def readItems (input : Input) :
    Option (List Outline × { r : Input // r.length < input.length }) :=
  match readValue input with
  | none => none
  | some (v, ⟨r₁, h₁⟩) =>
    have hs := length_skipBlanks_le r₁
    match hi : skipBlanks r₁ with
    | some ']' :: r => some ([v], ⟨r, by simp [hi] at hs; omega⟩)
    | some ',' :: r =>
      match readItems r with
      | some (vs, ⟨r₂, h₂⟩) => some (v :: vs, ⟨r₂, by simp [hi] at hs; omega⟩)
      | none => none
    | _ => none
termination_by (input.length, 1)
decreasing_by
  · exact Prod.Lex.right _ (by omega)
  · simp [hi] at hs; omega

/-- The members of an object up to its closing brace, at least one. -/
def readMembers (input : Input) :
    Option (List (List Piece × Outline) × { r : Input // r.length < input.length }) :=
  have hs := length_skipBlanks_le input
  match hi : skipBlanks input with
  | some '"' :: rest =>
    match hk : readString rest with
    | none => none
    | some (key, r₁) =>
      have h₁ := length_readString_lt hk
      have hc := length_skipBlanks_le r₁
      match hj : skipBlanks r₁ with
      | some ':' :: r₂ =>
        match readValue r₂ with
        | none => none
        | some (v, ⟨r₃, h₃⟩) =>
          have he := length_skipBlanks_le r₃
          match hl : skipBlanks r₃ with
          | some '}' :: r =>
            some ([(key, v)], ⟨r, by simp [hi] at hs; simp [hj] at hc; simp [hl] at he; omega⟩)
          | some ',' :: r =>
            match readMembers r with
            | some (ms, ⟨r₄, h₄⟩) =>
              some ((key, v) :: ms,
                ⟨r₄, by simp [hi] at hs; simp [hj] at hc; simp [hl] at he; omega⟩)
            | none => none
          | _ => none
      | _ => none
  | _ => none
termination_by (input.length, 1)
decreasing_by
  · simp [hi] at hs; simp [hj] at hc; omega
  · simp [hi] at hs; simp [hj] at hc; simp [hl] at he; omega

end

/-- Reads bytes as one value with nothing but blanks after it. -/
def read? (bytes : List UInt8) : Option Outline :=
  match readValue (Text.Utf8.decode bytes) with
  | some (v, ⟨r, _⟩) => if (skipBlanks r).isEmpty then some v else none
  | none => none

end Outline

end ShopTables.Json
