import ShopTables.Schema.Table
import ShopTables.Value
import ShopTables.Text.Characters

/-!
# Filters

A filter is written `column=value`: the column up to the first equals sign, without the blanks
around it, and the value as it stands. A row passes if its cell, shown as text, is the value.
-/

namespace ShopTables

/-- A column, by its place, and the text its cell is to show. -/
structure Filter where
  ordinal : Nat
  value : String
  deriving DecidableEq

/-- Why a filter cannot be used. -/
inductive FilterError where
  /-- There is no equals sign. -/
  | malformed (written : String)
  | unknownColumn (column table : String)
  deriving DecidableEq

def FilterError.message : FilterError → String
  | .malformed written => "invalid filter '" ++ written ++ "': expected COLUMN=VALUE"
  | .unknownColumn column table => "unknown column '" ++ column ++ "' in " ++ table

namespace Filter

/-- What stands before and after the first equals sign. -/
def split? : List Char → Option (List Char × List Char)
  | [] => none
  | c :: cs => if c = '=' then some ([], cs) else (split? cs).map fun (a, b) => (c :: a, b)

def read (d : TableDefinition) (written : String) : Except FilterError Filter :=
  match split? written.toList with
  | none => .error (.malformed written)
  | some (column, value) =>
    let name := String.ofList (Text.trim column)
    match d.indexOf name with
    | none => .error (.unknownColumn name d.name)
    | some i => .ok ⟨i, String.ofList value⟩

/-- Reads filters on a table; the first that cannot be used is the one reported. -/
def readAll (d : TableDefinition) (written : List String) : Except FilterError (List Filter) :=
  written.mapM (read d)

def passes (f : Filter) (row : Row) : Bool :=
  match row[f.ordinal]? with
  | none => false
  | some cell => cell.display == f.value

def allPass (filters : List Filter) (row : Row) : Bool := filters.all (·.passes row)

end Filter

end ShopTables
