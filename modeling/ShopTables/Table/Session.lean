import ShopTables.Api.Basic
import ShopTables.Api.Search
import ShopTables.RowStore.Basic
import ShopTables.Table.Error

/-!
# Sessions — the shop and what was read from it

Reading a table copies all its records into a row store of its own, which is never used again for
another reading. A session keeps these row stores in the order in which they came about, so that a
row store is known by its number and stays what it is when the table is read again.
-/

namespace ShopTables

/-- The shop, as the state `σ` of what answers requests, and the row stores read from it. -/
structure Session (σ : Type) where
  api : σ
  stores : List RowStore := []

namespace Session

variable {σ α : Type}

def store? (s : Session σ) (number : Nat) : Option RowStore := s.stores[number]?

/-- Puts a row store in the place of that of a number. -/
def setStore (s : Session σ) (number : Nat) (store : RowStore) : Session σ :=
  { s with stores := s.stores.set number store }

def call (x : Step ApiError σ α) : Step TableError (Session σ) α :=
  (x.mapError .api).within Session.api fun api s => { s with api }

/-- Keeps a new row store, and gives its number. -/
def addStore (store : RowStore) : Step TableError (Session σ) Nat :=
  Step.ofFn fun s => (.ok s.stores.length, { s with stores := s.stores ++ [store] })

/-- The row store of the records of a table, unless one of them does not fit it. -/
def storeOf (d : TableDefinition) (partitions : Nat) (records : List (KeyList Json)) :
    Except TableError RowStore := do
  let rows ← (records.mapM d.rowOf).mapError .conversion
  let store ← (RowStore.create d.name d.columns partitions).mapError .store
  (store.insertAll rows).mapError .store

/-- Reads a table: one request, and a new row store with one row for each record, or none at all
if anything fails. -/
def materialize [Api σ] (ctx : Context) (d : TableDefinition) (partitions : Nat) :
    Step TableError (Session σ) Nat := do
  let answer ← call (Api.postJson ctx (searchPath d.name) none SearchAnswer.read?)
  let store ← Step.ofExcept (storeOf d partitions answer.records)
  addStore store

end Session

end ShopTables
