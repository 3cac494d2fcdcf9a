import ShopTables.Yaml.Kind

/-!
# Writing scalars

A text is written in the plainest style that is read back as it is: `styleOf` chooses the style and
`printScalar` writes it. A text with line feeds is written as a literal block, any other plainly if
that is allowed; then come single quotes, and double quotes, in which every character can be
escaped, are left for the rest. A field is its name and its value.
-/

namespace ShopTables.Yaml

/-! ### What a text consists of -/

/-- May a character be written as it is? Controls other than the line feed may not, nor the byte
order mark. -/
def isPrintable (c : Char) : Bool :=
  let n := c.toNat
  n == 0x0A || (0x20 ≤ n && n ≤ 0x7E) || (0xA0 ≤ n && n ≤ 0xFFFD && n != 0xFEFF) || 0x10000 ≤ n

/-- Does a character of the first kind stand right before one of the second? -/
def hasPair (f g : Char → Bool) : List Char → Bool
  | c :: d :: cs => (f c && g d) || hasPair f g (d :: cs)
  | _ => false

/-- The characters that a plain scalar cannot begin with. -/
def leadingIndicators : List Char :=
  ['#', ',', '[', ']', '{', '}', '&', '*', '!', '|', '>', '\'', '"', '%', '@', '\x60']

/-- Does a text begin as a plain scalar cannot? -/
def hasLeadingIndicator : List Char → Bool
  | [] => false
  | c :: cs =>
    leadingIndicators.contains c || ((c == '-' || c == '?') && endsWord cs)
      || ['-', '-', '-'].isPrefixOf (c :: cs) || ['.', '.', '.'].isPrefixOf (c :: cs)

def hasInnerIndicator (cs : List Char) : Bool :=
  hasPair (· == ':') (fun d => isBlank d || isBreak d) cs || cs.getLast? == some ':'
    || hasPair (fun c => isBlank c || isBreak c) (· == '#') cs

/-- Does a text have a blank or a line break at one of its ends? -/
def hasOuterGap (cs : List Char) : Bool :=
  cs.head?.any (fun c => c == ' ' || isBreak c) || cs.getLast?.any (fun c => c == ' ' || isBreak c)

/-- Has a text a character that must be escaped, or a blank before a line break? -/
def needsEscapes (cs : List Char) : Bool :=
  cs.any (!isPrintable ·) || hasPair (· == ' ') isBreak cs

/-! ### Styles -/

def allowsPlain (cs : List Char) : Bool :=
  !(needsEscapes cs || cs.any isBreak || hasOuterGap cs || hasLeadingIndicator cs
    || hasInnerIndicator cs)

def allowsSingleQuotes (cs : List Char) : Bool :=
  !(needsEscapes cs || hasPair isBreak (· == ' ') cs)

def allowsBlock (cs : List Char) : Bool := !(needsEscapes cs || cs.getLast? == some ' ')

def styleOf (cs : List Char) : ScalarStyle :=
  if cs.contains '\n' then if allowsBlock cs then .literal else .doubleQuoted
  else if !isAmbiguous cs && allowsPlain cs then .plain
  else if allowsSingleQuotes cs then .singleQuoted
  else .doubleQuoted

/-! ### Writing -/

/-- Writes the lines of a text, of which every one that is not empty is indented. -/
def printLines (indent : Nat) (encode : Char → List Char) : (atStart : Bool) → List Char → List Char
  | _, [] => []
  | atStart, c :: cs =>
    if isBreak c then c :: printLines indent encode true cs
    else
      (if atStart then List.replicate indent ' ' else []) ++ encode c
        ++ printLines indent encode false cs

def printSingleQuoted (indent : Nat) (cs : List Char) : List Char :=
  let closing := if cs.getLast?.any isBreak then List.replicate indent ' ' else []
  '\'' :: printLines indent (fun c => if c = '\'' then ['\'', '\''] else [c]) false cs
    ++ closing ++ ['\'']

def hexDigit (n : Nat) : Char := (Nat.digitChar n).toUpper

/-- The last `width` hexadecimal digits of a number. -/
def hexDigits : (width : Nat) → Nat → List Char
  | 0, _ => []
  | width + 1, n => hexDigits width (n / 16) ++ [hexDigit (n % 16)]

/-- What follows the backslash where a character is escaped. -/
def escapeOf (c : Char) : List Char :=
  match c with
  | '\x00' => ['0']
  | '\x07' => ['a']
  | '\x08' => ['b']
  | '\t' => ['t']
  | '\n' => ['n']
  | '\x0b' => ['v']
  | '\x0c' => ['f']
  | '\r' => ['r']
  | '\x1b' => ['e']
  | '"' => ['"']
  | '\\' => ['\\']
  | '\u0085' => ['N']
  | '\u2028' => ['L']
  | '\u2029' => ['P']
  | c =>
    if c.toNat ≤ 0xFF then 'x' :: hexDigits 2 c.toNat
    else if c.toNat ≤ 0xFFFF then 'u' :: hexDigits 4 c.toNat
    else 'U' :: hexDigits 8 c.toNat

def printEscaped (c : Char) : List Char :=
  if !isPrintable c || isBreak c || c == '"' || c == '\\' then '\\' :: escapeOf c else [c]

def printDoubleQuoted (cs : List Char) : List Char := '"' :: cs.flatMap printEscaped ++ ['"']

/-- What stands after the indicator of a literal block: its indentation, if that cannot be seen,
and what becomes of the line breaks at its end. -/
def literalHints (cs : List Char) : List Char :=
  let chomping :=
    match cs.reverse with
    | [] => ['-']
    | c :: ds =>
      if !isBreak c then ['-']
      else if ds.head?.all isBreak then ['+']
      else []
  (if cs.head?.any (fun c => c == ' ' || isBreak c) then ['2'] else []) ++ chomping

/-- Writes a text as a literal block whose lines have the given indentation. -/
def printLiteral (indent : Nat) (cs : List Char) : List Char :=
  '|' :: literalHints cs ++ '\n' :: printLines indent ([·]) true cs

/-- Writes a scalar to the end of its last line. -/
def printScalar (indent : Nat) (cs : List Char) : List Char :=
  match styleOf cs with
  | .plain => cs ++ ['\n']
  | .singleQuoted => printSingleQuoted indent cs ++ ['\n']
  | .literal =>
    printLiteral indent cs ++ (if cs.getLast?.any isBreak then [] else ['\n'])
  | _ => printDoubleQuoted cs ++ ['\n']

/-! ### Fields -/

/-- Writes a field whose value is a text, `indent` characters from the left. -/
def printTextField (indent : Nat) (name value : String) : List Char :=
  List.replicate indent ' ' ++ name.toList ++ ':' :: ' ' :: printScalar (indent + 2) value.toList

def printCountField (indent : Nat) (name : String) (value : Nat) : List Char :=
  List.replicate indent ' ' ++ name.toList ++ ':' :: ' ' :: Nat.toDigits 10 value ++ ['\n']

def printForm (name : String) (fields : List Char) : List Char :=
  name.toList ++ ':' :: '\n' :: fields

end ShopTables.Yaml
