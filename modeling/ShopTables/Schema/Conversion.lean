import ShopTables.Schema.Table
import ShopTables.Value
import ShopTables.Text.Characters
import ShopTables.Binary64.Numeral

/-!
# Records as rows

A record is a JSON object with fields by name. Each field that names a column becomes the cell of
that column (`Column.convert`), each column without a field stays empty, and all other fields are
passed over (`TableDefinition.rowOf`). A value that its column cannot hold is a `Mismatch`.
-/

namespace ShopTables

/-- A value that a column cannot hold. -/
structure Mismatch where
  column : Column
  value : Json

def Mismatch.message (m : Mismatch) : String :=
  "column " ++ m.column.name ++ " (" ++ m.column.type.sqlName ++ ") cannot hold " ++ m.value.text

namespace Column

def keepsDocuments (c : Column) : Bool := c.isJson || c.type == .json

def booleanOfText? (s : String) : Option Bool :=
  if s = "true" ∨ s = "1" then some true
  else if s = "false" ∨ s = "0" then some false
  else none

/-- The cell of a value in a text column: strings as they are, all else by its text. -/
def textCell : Json → Value
  | .string s => .text s
  | v => .text v.text

/-- The cell of a value in a column of truth values: every number but zero is true. -/
def booleanCell? : Json → Option Value
  | .bool b => some (.boolean b)
  | .number n => some (.boolean (!n.toBinary64.isZero))
  | .string s => (booleanOfText? s).map .boolean
  | _ => none

/-- The cell of a value in a column of numbers: text counts if it is a numeral. -/
def doubleCell? : Json → Option Value
  | .number n => some (.double n.toBinary64)
  | .string s => (Binary64.ofText? (Text.trim s.toList)).map .double
  | .bool b => some (.double (Binary64.ofInt (if b then 1 else 0)))
  | _ => none

/-- The cell of a value other than null in a column that keeps no documents. -/
def scalarCell? (c : Column) (v : Json) : Option Value :=
  match c.type with
  | .text => some (textCell v)
  | .boolean => booleanCell? v
  | .double => doubleCell? v
  | .json => none

def convert (c : Column) (v : Json) : Except Mismatch Value :=
  if v.isNull then .ok .null
  else if c.keepsDocuments then .ok (.json v.bytes)
  else
    match c.scalarCell? v with
    | some cell => .ok cell
    | none => .error ⟨c, v⟩

end Column

namespace TableDefinition

/-- Puts one field of a record into a row. -/
def place (d : TableDefinition) (row : Row) (field : String × Json) : Except Mismatch Row :=
  match d.indexOf field.1 with
  | none => .ok row
  | some i =>
    match d.columns[i]? with
    | none => .ok row
    | some c => (c.convert field.2).map (row.set i)

/-- The row of a record. Its fields are taken in key order, so of several mismatches the first in
that order is the one reported. -/
def rowOf (d : TableDefinition) (record : KeyList Json) : Except Mismatch Row :=
  record.foldlM d.place (Row.nulls d.columns.length)

end TableDefinition

end ShopTables
