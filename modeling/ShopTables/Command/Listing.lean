import ShopTables.Schema.Table
import ShopTables.Value

/-!
# Listings

What the commands print: the names of tables, the columns of a table, and rows, either as a table
of padded cells or as a list of objects.
-/

namespace ShopTables.Listing

/-- A text filled up with blanks to a width. A longer one stays as it is. -/
def pad (width : Nat) (cs : List Char) : List Char :=
  cs ++ List.replicate (width - cs.length) ' '

def join (separator : List Char) (parts : List (List Char)) : List Char :=
  (parts.intersperse separator).flatten

/-- Lines, each ended. -/
def lines (parts : List (List Char)) : List Char := parts.flatMap (· ++ ['\n'])

/-! ### Tables and columns -/

/-- The line of one table: its name, and a mark if it is a junction. -/
def tableLine (name : String) (d : TableDefinition) : List Char :=
  name.toList ++ (if d.isMapping then " (mapping)".toList else [])

def tables (definitions : KeyList TableDefinition) : String :=
  String.ofList (lines (definitions.map fun (name, d) => tableLine name d))

/-- What is said about a column after its name and type. -/
def columnNotes (c : Column) : List (List Char) :=
  (if c.primaryKey then ["PRIMARY KEY".toList] else [])
    ++ (if c.nullable then [] else ["NOT NULL".toList])
    ++ (c.comment.map fun text => "-- ".toList ++ text.toList).toList

def columnLine (width : Nat) (c : Column) : List Char :=
  [' ', ' '] ++ pad width c.name.toList ++ [' ', ' '] ++ pad 8 c.type.sqlName.toList ++ [' ']
    ++ join [' '] (columnNotes c)

/-- The greatest of numbers; zero if there are none. -/
def greatest (ns : List Nat) : Nat := ns.foldl max 0

/-- The lines that describe a table. Names are padded to the longest, measured in bytes. -/
def describe (d : TableDefinition) : String :=
  let width := greatest (d.columns.map (·.name.utf8ByteSize))
  String.ofList (lines (("Table: ".toList ++ d.name.toList)
    :: ((if d.isMapping then ["Mapping entity: yes".toList] else [])
      ++ d.columns.map (columnLine width))))

/-! ### Rows -/

/-- The width of a column: its header measured in bytes, or its longest cell in characters. -/
def width (i : Nat) (header : String) (cells : List (List (List Char))) : Nat :=
  greatest (header.utf8ByteSize :: cells.filterMap fun row => (row[i]?).map List.length)

def widths (headers : List String) (cells : List (List (List Char))) : List Nat :=
  headers.zipIdx.map fun (header, i) => width i header cells

def rowLine (widths : List Nat) (cells : List (List Char)) : List Char :=
  join " | ".toList ((cells.zip widths).map fun (cell, w) => pad w cell)

def ruleLine (widths : List Nat) : List Char :=
  join "-+-".toList (widths.map fun w => List.replicate w '-')

def countLine (count : Nat) : List Char := '(' :: (Nat.toDigits 10 count ++ " rows)".toList)

def rows (columns : List Column) (rows : List Row) : String :=
  let headers := columns.map (·.name)
  let cells := rows.map fun row => row.map fun v => v.display.toList
  let ws := widths headers cells
  String.ofList (lines (rowLine ws (headers.map String.toList) :: ruleLine ws
    :: (cells.map (rowLine ws) ++ [countLine rows.length])))

/-- A row as an object: the document of each cell by the name of its column. -/
def rowObject (columns : List Column) (row : Row) : Json :=
  Json.ofFields ((columns.zip row).map fun (c, v) => (c.name, v.toJson))

def objects (columns : List Column) (rows : List Row) : String :=
  (Json.array (rows.map (rowObject columns))).pretty ++ "\n"

end ShopTables.Listing
