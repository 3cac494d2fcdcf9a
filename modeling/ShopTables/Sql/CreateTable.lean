import ShopTables.Schema.Table

/-!
# Table statements

The text that creates a table: the names quoted, each column with its storage type and with
`NOT NULL` where it must not be empty. A quote inside a name is written twice, so any text at all
can name a table or a column. Keys are not declared, because a listing may well repeat one. A table
without columns gets a placeholder, as there are no tables without any.
-/

namespace ShopTables

/-- How the cells of a column are stored. -/
inductive StorageType where
  | text
  | blob
  | integer
  | real
  deriving DecidableEq

def StorageType.sqlName : StorageType → String
  | .text => "TEXT"
  | .blob => "BLOB"
  | .integer => "INTEGER"
  | .real => "REAL"

/-- How a column is stored: documents as bytes, whatever their column's type. -/
def Column.storageType (c : Column) : StorageType :=
  if c.isJson then .blob
  else
    match c.type with
    | .text => .text
    | .json => .blob
    | .boolean => .integer
    | .double => .real

namespace Sql

/-! ### Quoted names -/

/-- The characters of a name inside its quotes: a quote is written twice. -/
def escapeQuotes : List Char → List Char
  | [] => []
  | c :: cs => if c = '"' then '"' :: '"' :: escapeQuotes cs else c :: escapeQuotes cs

def quoteChars (name : List Char) : List Char := '"' :: (escapeQuotes name ++ ['"'])

def quote (name : String) : String := String.ofList (quoteChars name.toList)

@[simp] theorem escapeQuotes_nil : escapeQuotes [] = [] := rfl

/-! ### The statement -/

/-- The column of a table that has no other. -/
def placeholder : String := "_placeholder"

/-- A column as it stands in a table statement. -/
def columnClause (c : Column) : List Char :=
  quoteChars c.name.toList ++ ' ' :: (c.storageType.sqlName.toList
    ++ (if c.nullable then [] else " NOT NULL".toList))

def joinWith (separator : List Char) : List (List Char) → List Char
  | [] => []
  | [x] => x
  | x :: y :: rest => x ++ separator ++ joinWith separator (y :: rest)

/-- What stands between the brackets of a table statement. -/
def tableBody (columns : List Column) : List Char :=
  if columns.isEmpty then quoteChars placeholder.toList ++ " INTEGER".toList
  else joinWith [',', ' '] (columns.map columnClause)

def createTableChars (table : String) (columns : List Column) : List Char :=
  "CREATE TABLE ".toList ++ quoteChars table.toList ++ ' ' :: '(' :: (tableBody columns ++ [')'])

def createTable (table : String) (columns : List Column) : String :=
  String.ofList (createTableChars table columns)

end Sql

end ShopTables
