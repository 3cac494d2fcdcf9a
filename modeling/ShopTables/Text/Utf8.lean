/-!
# UTF-8, with and without its faults

`decode` reads bytes position by position: a character where the bytes are one, `none` for each
longest run of bytes that could have begun a character and does not. What a text must be
(`strict?`) and what it is shown as (`lossy`) are both read off this one view, and JSON is read
over it, so that a fault inside a part nobody looks at stays harmless.
-/

namespace ShopTables.Text.Utf8

/-- How many bytes the character announced by a lead byte has; 0 for a byte that leads none. -/
def leadLength (b : Nat) : Nat :=
  if b < 0x80 then 1
  else if 0xC2 ≤ b ∧ b ≤ 0xDF then 2
  else if 0xE0 ≤ b ∧ b ≤ 0xEF then 3
  else if 0xF0 ≤ b ∧ b ≤ 0xF4 then 4
  else 0

/-- May `c` be the second byte after the lead byte `b`? Overlong forms, surrogates and numbers
beyond U+10FFFF are shut out here. -/
def isSecond (b c : Nat) : Bool :=
  if b = 0xE0 then 0xA0 ≤ c && c ≤ 0xBF
  else if b = 0xED then 0x80 ≤ c && c ≤ 0x9F
  else if b = 0xF0 then 0x90 ≤ c && c ≤ 0xBF
  else if b = 0xF4 then 0x80 ≤ c && c ≤ 0x8F
  else 0x80 ≤ c && c ≤ 0xBF

/-- Is `c` a third or fourth byte? -/
def isTail (c : Nat) : Bool := 0x80 ≤ c && c ≤ 0xBF

/-- The six low bits that a continuation byte adds. -/
def low (c : Nat) : Nat := c % 64

/-- Reads `n` more continuation bytes after the bits `code`. -/
def readTail : Nat → Nat → List UInt8 → Option Char × List UInt8
  | 0, code, rest => (some (Char.ofNat code), rest)
  | _ + 1, _, [] => (none, [])
  | n + 1, code, c :: rest =>
    if isTail c.toNat then readTail n (code * 64 + low c.toNat) rest else (none, c :: rest)

theorem length_readTail_le (n code : Nat) (bytes : List UInt8) :
    (readTail n code bytes).2.length ≤ bytes.length := by
  fun_induction readTail n code bytes <;> simp_all
  omega

/-- Reads one position after its first byte: the character or the fault, and the bytes left. -/
def step (b : UInt8) (rest : List UInt8) : Option Char × List UInt8 :=
  match leadLength b.toNat with
  | 0 => (none, rest)
  | 1 => (some (Char.ofNat b.toNat), rest)
  | n + 2 =>
    match rest with
    | [] => (none, [])
    | c :: more =>
      if isSecond b.toNat c.toNat then
        readTail n (b.toNat % Nat.pow 2 (5 - n) * 64 + low c.toNat) more
      else (none, rest)

theorem length_step_le (b : UInt8) (rest : List UInt8) : (step b rest).2.length ≤ rest.length := by
  unfold step
  split
  · simp
  · simp
  · split
    · simp
    · split
      · have := length_readTail_le
        grind
      · simp

/-- Each position of the bytes: its character, or `none` for a run that is none. -/
def decode : List UInt8 → List (Option Char)
  | [] => []
  | b :: rest => (step b rest).1 :: decode (step b rest).2
termination_by bytes => bytes.length
decreasing_by have := length_step_le b rest; simp; omega

def encode (cs : List Char) : List UInt8 := cs.flatMap String.utf8EncodeChar

/-- The text that bytes are, if every position is a character. -/
def strict? (bytes : List UInt8) : Option (List Char) := (decode bytes).mapM id

/-- The text that bytes are shown as: U+FFFD stands for each fault. -/
def lossy (bytes : List UInt8) : List Char := (decode bytes).map (·.getD '\uFFFD')

def ofString (s : String) : List UInt8 := encode s.toList

end ShopTables.Text.Utf8
