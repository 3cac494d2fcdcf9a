import ShopTables.Sql.CreateTable

/-!
# What a row store refuses

The causes for which a table cannot be made, a row not stored and a savepoint not found, and
their wording. A row that is to be deleted and is not there is told apart from all of these.
-/

namespace ShopTables

/-- Why the store behind a table refuses. -/
inductive StoreError where
  /-- Names that begin with `sqlite_` belong to the store itself. -/
  | reservedName (table : String)
  /-- Two columns whose names differ in case at most; the later one is named. -/
  | duplicateColumn (name : String)
  | tooManyColumns (table : String)
  /-- A name with a NUL: the text from its opening quote to the NUL is no token. -/
  | unrecognizedToken (token sql : String) (offset : Nat)
  /-- An empty cell in a column that must not be empty. -/
  | emptyCell (table column : String)
  /-- A row of the wrong width. -/
  | wrongWidth (given needed : Nat)
  /-- A savepoint is open, so that rows cannot be stored. -/
  | statementOpen
  | noSuchSavepoint (name : String)
  /-- More columns tell rows apart than one condition can compare. -/
  | keyTooWide
  /-- There is no such row to delete. -/
  | rowNotFound (table : String)
  deriving DecidableEq

namespace StoreError

/-- Is this a row that was not found, and no refusal? -/
def isRowNotFound : StoreError → Bool
  | .rowNotFound _ => true
  | _ => false

def reason : StoreError → String
  | .reservedName table => "object name reserved for internal use: " ++ table
  | .duplicateColumn name => "duplicate column name: " ++ name
  | .tooManyColumns table => "too many columns on " ++ table
  | .unrecognizedToken token sql offset =>
    "unrecognized token: \"" ++ token ++ "\" in " ++ sql ++ " at offset " ++ toString offset
  | .emptyCell table column => "NOT NULL constraint failed: " ++ table ++ "." ++ column
  | .wrongWidth given needed =>
    "Wrong number of parameters passed to query. Got " ++ toString given ++ ", needed "
      ++ toString needed
  | .statementOpen => "cannot start a transaction within a transaction"
  | .noSuchSavepoint name => "no such savepoint: " ++ name
  | .keyTooWide => "Expression tree is too large (maximum depth 1000)"
  | .rowNotFound table => "row not found in " ++ table

def message (e : StoreError) : String :=
  if e.isRowNotFound then e.reason else "row store error: " ++ e.reason

end StoreError

end ShopTables
