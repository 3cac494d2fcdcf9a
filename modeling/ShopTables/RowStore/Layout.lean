import ShopTables.RowStore.Error
import ShopTables.Text.Characters
import ShopTables.Text.Utf8

/-!
# Layouts a store accepts

A table statement is read from left to right, and the first thing wrong with it is what is
reported: a NUL in the table's name, a reserved name, then column by column a NUL, a name used
before, one column too many. Names are compared without regard to ASCII case.
-/

namespace ShopTables.RowStore

def maxColumns : Nat := 2000

def nul : Char := '\x00'

/-- Does a name begin like those of the store's own tables? -/
def isReserved (name : String) : Bool := "sqlite_".toList.isPrefixOf (Text.lowerAscii name).toList

/-- The refusal of a name with a NUL, whose opening quote stands at the byte `offset`. -/
def nulError (offset : Nat) (name : List Char) (sql : String) : StoreError :=
  .unrecognizedToken (String.ofList ('"' :: Sql.escapeQuotes (name.takeWhile (· ≠ nul)))) sql offset

/-- What is wrong with the columns after those of the names `seen` (in small letters), the first
of them at the byte `offset`. -/
def faultOfColumns? (table sql : String) : Nat → List String → List Column → Option StoreError
  | _, _, [] => none
  | offset, seen, c :: rest =>
    if c.name.toList.contains nul then some (nulError offset c.name.toList sql)
    else if maxColumns ≤ seen.length then some (.tooManyColumns table)
    else if seen.contains (Text.lowerAscii c.name) then some (.duplicateColumn c.name)
    else faultOfColumns? table sql (offset + (Text.Utf8.encode (Sql.columnClause c)).length + 2)
      (Text.lowerAscii c.name :: seen) rest

/-- What is wrong with a table, if anything. -/
def fault? (table : String) (columns : List Column) : Option StoreError :=
  let sql := Sql.createTable table columns
  let start := "CREATE TABLE ".toList
  if table.toList.contains nul then some (nulError start.length table.toList sql)
  else if isReserved table then some (.reservedName table)
  else
    let head := start ++ Sql.quoteChars table.toList ++ [' ', '(']
    faultOfColumns? table sql (Text.Utf8.encode head).length [] columns

end ShopTables.RowStore
