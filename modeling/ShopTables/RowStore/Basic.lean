import ShopTables.RowStore.Cell
import ShopTables.RowStore.Layout

/-!
# The row store — the rows of one table for one statement

Rows are kept with their numbers, in ascending order; a new row gets the number after the last.
The number decides which partition a row belongs to and the order in which rows come back. Rows
are added all or none. A savepoint keeps the rows as they were, and as long as one is open no rows
are added; savepoints nest, and may repeat a name, which then means the innermost.

A column called `rowid`, in any case, takes the place of the row numbers: then its cells decide
about partitions, order and which rows a delete hits.
-/

namespace ShopTables

/-- A stored row and its number. -/
structure NumberedRow where
  number : Nat
  cells : List Cell
  deriving DecidableEq

/-- The rows as they were when a savepoint was opened. -/
structure Savepoint where
  name : String
  rows : List NumberedRow
  deriving DecidableEq

/-- The rows of one table. -/
structure RowStore where
  name : String
  columns : List Column
  partitionCount : Nat
  partitionCount_pos : 0 < partitionCount
  /-- In ascending order of their numbers. -/
  stored : List NumberedRow
  /-- The open savepoints, the innermost first. -/
  savepoints : List Savepoint

namespace RowStore

/-- An empty store, unless something is wrong with the table. No partitions count as one. -/
def create (name : String) (columns : List Column) (partitions : Nat) :
    Except StoreError RowStore :=
  match fault? name columns with
  | some e => .error e
  | none =>
    .ok { name, columns, partitionCount := max partitions 1, partitionCount_pos := by omega,
          stored := [], savepoints := [] }

def size (s : RowStore) : Nat := s.stored.length

def isEmpty (s : RowStore) : Bool := s.stored.isEmpty

/-! ### Adding rows -/

def nextNumber (s : RowStore) : Nat :=
  match s.stored.getLast? with
  | none => 1
  | some r => r.number + 1

/-- The cells of a row as the columns keep them. -/
def coerceRow (s : RowStore) (row : Row) : List Cell :=
  (s.columns.zip row).map fun (c, v) => c.storageType.coerce (Cell.ofValue v)

/-- The first column that must not be empty and would be. -/
def emptyColumn? (s : RowStore) (cells : List Cell) : Option Column :=
  ((s.columns.zip cells).find? fun (c, cell) => !c.nullable && cell.isNull).map (·.1)

/-- Adds one row. A table without columns takes any row. -/
def append (s : RowStore) (row : Row) : Except StoreError RowStore :=
  if s.columns.isEmpty then .ok { s with stored := s.stored ++ [⟨s.nextNumber, []⟩] }
  else if row.length ≠ s.columns.length then
    .error (.wrongWidth (min row.length (s.columns.length + 1)) s.columns.length)
  else
    match s.emptyColumn? (s.coerceRow row) with
    | some c => .error (.emptyCell s.name c.name)
    | none => .ok { s with stored := s.stored ++ [⟨s.nextNumber, s.coerceRow row⟩] }

/-- Adds rows, all or none. -/
def insertAll (s : RowStore) (rows : List Row) : Except StoreError RowStore :=
  if s.savepoints.isEmpty then rows.foldlM append s else .error .statementOpen

/-! ### Row numbers -/

/-- The place of the column that hides the row numbers. -/
def numberColumn? (s : RowStore) : Option Nat :=
  s.columns.findIdx? fun c => Text.lowerAscii c.name == "rowid"

def numberOf (s : RowStore) (r : NumberedRow) : Cell :=
  match s.numberColumn? with
  | none => .integer r.number
  | some i => r.cells.getD i .null

/-- The partition of a number that was reduced by one; negative ones belong to none but 0. -/
def partitionOfInt (count : Nat) (i : Int) : Int := Int.tmod i count

/-- One less than a number, as an integer within the 64-bit range. -/
def predecessor : NumericText.Number → Int
  | .integer i =>
    if i = -9223372036854775808 then (Binary64.ofInt i).pred.truncate else i - 1
  | .real x => x.pred.truncate

/-- The partition of a row number; one that is empty has none. -/
def partitionOf? (count : Nat) : Cell → Option Int
  | .null => none
  | .integer i => some (partitionOfInt count (predecessor (.integer i)))
  | .real x => some (partitionOfInt count (predecessor (.real x)))
  | .text s => some (partitionOfInt count (predecessor (NumericText.leadingNumber s.toList)))
  | .blob bytes =>
    some (partitionOfInt count (predecessor (NumericText.leadingNumber (Text.Utf8.lossy bytes))))

/-- The rows in the order in which they come back. -/
def ordered (s : RowStore) : List NumberedRow :=
  match s.numberColumn? with
  | none => s.stored
  | some _ => s.stored.mergeSort fun a b => (s.numberOf a).compareTo (s.numberOf b) != .gt

/-! ### Reading rows -/

def valuesOf (s : RowStore) (r : NumberedRow) : Row :=
  (s.columns.zip r.cells).map fun (c, cell) => cell.toValue c

/-- The partitions of the store, empty ones too. -/
def partitions (s : RowStore) : List Nat := List.range s.partitionCount

def partitionRows (s : RowStore) (index : Nat) : List Row :=
  (s.ordered.filter fun r => partitionOf? s.partitionCount (s.numberOf r) == some (index : Int)).map
    s.valuesOf

/-- The rows of all partitions, one after the other. -/
def rows (s : RowStore) : List Row := s.partitions.flatMap s.partitionRows

/-! ### Deleting rows -/

/-- The places of the columns that tell rows apart: the primary key, or all columns if there is
none. -/
def keyOrdinals (s : RowStore) : List Nat :=
  let primary := s.columns.zipIdx.filterMap fun (c, i) => if c.primaryKey then some i else none
  if primary.isEmpty then List.range s.columns.length else primary

/-- Do the cells at a place agree? A place that the given row lacks counts as empty. -/
def agreeAt (s : RowStore) (row : Row) (r : NumberedRow) (i : Nat) : Bool :=
  match s.columns[i]? with
  | none => true
  | some c => c.storageType.agree (r.cells.getD i .null) (Cell.ofValue (row.getD i .null))

/-- Does a stored row have the key of the given one? -/
def hasKeyOf (s : RowStore) (row : Row) (r : NumberedRow) : Bool :=
  s.keyOrdinals.all (s.agreeAt row r)

/-- The stored rows that go when the row `r` is deleted: those that have its number. -/
def goesWith (s : RowStore) (r other : NumberedRow) : Bool :=
  !(s.numberOf r).isNull && (s.numberOf other).compareTo (s.numberOf r) == .eq

/-- The greatest number of columns by which rows can be told apart: the condition on `n` columns is
`2 * n + 4` deep with the statement around it, and may be 1000 deep. -/
def maxKeyColumns : Nat := 498

/-- Deletes the first row that has the key of the given one. A key that is too wide is refused
whatever the rows are. -/
def deleteRow (s : RowStore) (row : Row) : Except StoreError RowStore :=
  if maxKeyColumns < s.keyOrdinals.length then .error .keyTooWide
  else
    match s.stored.find? (s.hasKeyOf row) with
    | none => .error (.rowNotFound s.name)
    | some r =>
      if (s.numberOf r).isNull then .error (.rowNotFound s.name)
      else .ok { s with stored := s.stored.filter fun other => !s.goesWith r other }

/-! ### Savepoints -/

def openSavepoint (s : RowStore) (name : String) : RowStore :=
  { s with savepoints := ⟨name, s.stored⟩ :: s.savepoints }

/-- The innermost savepoint of a name, and those outside it. -/
def findSavepoint? (name : String) : List Savepoint → Option (Savepoint × List Savepoint)
  | [] => none
  | p :: outer => if p.name = name then some (p, outer) else findSavepoint? name outer

/-- Closes a savepoint and those inside it; the rows stay as they are. -/
def release (s : RowStore) (name : String) : Except StoreError RowStore :=
  match findSavepoint? name s.savepoints with
  | none => .error (.noSuchSavepoint name)
  | some (_, outer) => .ok { s with savepoints := outer }

/-- Closes a savepoint and those inside it; the rows are again what they were. -/
def rollback (s : RowStore) (name : String) : Except StoreError RowStore :=
  match findSavepoint? name s.savepoints with
  | none => .error (.noSuchSavepoint name)
  | some (p, outer) => .ok { s with stored := p.rows, savepoints := outer }

end RowStore

end ShopTables
