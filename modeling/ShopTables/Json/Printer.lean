import ShopTables.Json.Basic
import ShopTables.Binary64.Layout
import ShopTables.Text.Utf8

/-!
# Writing JSON values

`compact` has no blanks at all; `pretty` puts every item and field on a line of its own, two more
blanks deep at each level. In strings only the quote, the backslash and the control characters are
escaped; a float always shows that it is one.
-/

namespace ShopTables.Json

/-- Floats have the fewest digits that read back, are written positionally from 1e-5 up to below
1e16, and keep a point or an exponent. -/
def floatLayout : Layout := ⟨some (-5), some 15, true, false, 1⟩

/-- The text of a float; what is not finite is `null`. -/
def writeFloat (x : Binary64) : List Char :=
  if x.isFinite then x.write floatLayout .even else "null".toList

def writeInt (i : Int) : List Char :=
  (if i < 0 then ['-'] else []) ++ Nat.toDigits 10 i.natAbs

def writeNumber : Number → List Char
  | .integer i => writeInt i
  | .float x => writeFloat x

def escape (c : Char) : List Char :=
  if c = '"' then ['\\', '"']
  else if c = '\\' then ['\\', '\\']
  else if c = '\x08' then ['\\', 'b']
  else if c = '\x0c' then ['\\', 'f']
  else if c = '\n' then ['\\', 'n']
  else if c = '\r' then ['\\', 'r']
  else if c = '\t' then ['\\', 't']
  else if c.toNat < 0x20 then
    ['\\', 'u', '0', '0', Nat.digitChar (c.toNat / 16), Nat.digitChar (c.toNat % 16)]
  else [c]

def writeString (s : String) : List Char := '"' :: (s.toList.flatMap escape ++ ['"'])

mutual

/-- The text of a value without blanks. -/
def compact : Json → List Char
  | .null => "null".toList
  | .bool b => if b then "true".toList else "false".toList
  | .number n => writeNumber n
  | .string s => writeString s
  | .array items => '[' :: (compactItems items ++ [']'])
  | .object fields => '{' :: (compactFields fields ++ ['}'])

def compactItems : List Json → List Char
  | [] => []
  | [v] => compact v
  | v :: vs => compact v ++ ',' :: compactItems vs

def compactFields : List (String × Json) → List Char
  | [] => []
  | [(k, v)] => writeString k ++ ':' :: compact v
  | (k, v) :: fs => writeString k ++ ':' :: (compact v ++ ',' :: compactFields fs)

end

/-- A line break and the blanks of a level. -/
def newline (level : Nat) : List Char := '\n' :: List.replicate (2 * level) ' '

mutual

/-- The text of a value with a line for each item and field, inside `level` brackets. -/
def prettyAt (level : Nat) : Json → List Char
  | .array (v :: vs) =>
    '[' :: (newline (level + 1) ++ prettyItems (level + 1) (v :: vs) ++ newline level ++ [']'])
  | .object ((k, v) :: fs) =>
    '{' :: (newline (level + 1) ++ prettyFields (level + 1) ((k, v) :: fs)
      ++ newline level ++ ['}'])
  | .array [] => ['[', ']']
  | .object [] => ['{', '}']
  | .null => "null".toList
  | .bool b => if b then "true".toList else "false".toList
  | .number n => writeNumber n
  | .string s => writeString s

def prettyItems (level : Nat) : List Json → List Char
  | [] => []
  | [v] => prettyAt level v
  | v :: vs => prettyAt level v ++ ',' :: (newline level ++ prettyItems level vs)

def prettyFields (level : Nat) : List (String × Json) → List Char
  | [] => []
  | [(k, v)] => writeString k ++ ':' :: ' ' :: prettyAt level v
  | (k, v) :: fs =>
    writeString k ++ ':' :: ' ' ::
      (prettyAt level v ++ ',' :: (newline level ++ prettyFields level fs))

end

/-- The text of a value with a line for each item and field. -/
def pretty (v : Json) : String := String.ofList (prettyAt 0 v)

/-- The text of a value without blanks. -/
def text (v : Json) : String := String.ofList v.compact

/-- The bytes of a value's text without blanks. -/
def bytes (v : Json) : List UInt8 := Text.Utf8.encode v.compact

end ShopTables.Json
