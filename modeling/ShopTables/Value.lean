import ShopTables.Json.Reader
import ShopTables.Json.Printer

/-!
# Values — the cells of rows

A cell holds nothing, text, a truth value, a number or a JSON document, the last as the bytes of
its text. Shown as text (`Value.display`), a cell is what filters compare and what deleted records
are named by; as a document (`Value.toJson`), it is what listings print.
-/

namespace ShopTables

/-- One cell of a row. -/
inductive Value where
  | null
  | text (s : String)
  | boolean (b : Bool)
  | double (x : Binary64)
  /-- A JSON document, as the bytes of its text. -/
  | json (bytes : List UInt8)
  deriving DecidableEq

namespace Value

def isNull (v : Value) : Bool := v == .null

def text? : Value → Option String
  | .text s => some s
  | _ => none

/-- A cell as a document. Numbers that are not finite have none and become null; bytes that are
no document are shown as a string. -/
def toJson : Value → Json
  | .null => .null
  | .text s => .string s
  | .boolean b => .bool b
  | .double x => if x.isFinite then .number (.float x) else .null
  | .json bytes => (Json.read? bytes).getD (.string (String.ofList (Text.Utf8.lossy bytes)))

def display : Value → String
  | .null => ""
  | .text s => s
  | .boolean b => if b then "true" else "false"
  | .double x => String.ofList x.display
  | .json bytes => String.ofList (Text.Utf8.lossy bytes)

end Value

/-- The cells of one record, in the order of a table's columns. -/
abbrev Row := List Value

namespace Row

def nulls (width : Nat) : Row := List.replicate width .null

def toJson (row : Row) : Json := .array (row.map Value.toJson)

@[simp] theorem length_nulls (width : Nat) : (nulls width).length = width := by simp [nulls]

end Row

end ShopTables
