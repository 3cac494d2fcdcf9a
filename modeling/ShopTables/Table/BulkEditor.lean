import ShopTables.Api.BulkOperation
import ShopTables.RowStore.Deleter
import ShopTables.Table.Session
import ShopTables.Text.Characters

/-!
# Bulk editors — local deletes become one bulk operation

A bulk editor deletes rows from a row store at once and keeps the key of each. When it is closed,
the keys go to the shop as one bulk operation, at most once: they are let go before the request is
made, so a failed request is not repeated. Beginning and discarding let them go too.
-/

namespace ShopTables

/-- The deleter of one statement over a table of the shop. -/
structure BulkEditor where
  definition : TableDefinition
  /-- The number of the row store that rows are deleted from. -/
  store : Nat
  deleter : LocalDeleter := {}
  /-- The keys of the rows deleted so far, in order. -/
  pending : List RecordKey := []

namespace BulkEditor

variable {σ : Type}

def description (e : BulkEditor) : String :=
  "BulkEditor \x7b entity: " ++ Text.quoted e.definition.name ++ ", pending: "
    ++ toString e.pending.length ++ " \x7d"

/-- The key of a row: each column of the primary key with its cell shown as text. A cell that the
row lacks is the empty text. -/
def keyOf? (d : TableDefinition) (row : Row) : Option RecordKey :=
  if d.primaryKeyOrdinals.isEmpty then none
  else
    some (KeyList.ofList (d.primaryKeyOrdinals.filterMap fun i =>
      (d.columns[i]?).map fun c => (c.name, ((row[i]?).map Value.display).getD "")))

/-- The key of a row; without a primary key there is none. -/
def keyOf (row : Row) : Step TableError (Session σ × BulkEditor) RecordKey :=
  Step.ofFn fun (s, e) =>
    match keyOf? e.definition row with
    | some key => (.ok key, s, e)
    | none => (.error (.missingPrimaryKey e.definition.name), s, e)

/-- A call to the deleter of the row store. -/
def onStore (x : Step StoreError (RowStore × LocalDeleter) Unit) :
    Step TableError (Session σ × BulkEditor) Unit :=
  Step.ofFn fun (s, e) =>
    match s.store? e.store with
    | none => (.error (.notMaterialized e.definition.name), s, e)
    | some store =>
      let (r, store, deleter) := x.runFrom (store, e.deleter)
      (r.mapError .store, s.setStore e.store store, { e with deleter })

def modifyPending (f : List RecordKey → List RecordKey) :
    Step TableError (Session σ × BulkEditor) Unit :=
  Step.ofFn fun (s, e) => (.ok (), s, { e with pending := f e.pending })

def begin (ctx : Context) : Step TableError (Session σ × BulkEditor) Unit := do
  modifyPending fun _ => []
  onStore (LocalDeleter.begin ctx)

def delete (row : Row) : Step TableError (Session σ × BulkEditor) Unit := do
  let key ← keyOf row
  onStore (LocalDeleter.delete row)
  modifyPending (· ++ [key])

/-- Lets the keys go and takes the deletes back. -/
def discard : Step TableError (Session σ × BulkEditor) Unit := do
  modifyPending fun _ => []
  onStore LocalDeleter.discard

/-- Sends the keys, if there are any, and lets them go whatever the shop answers. -/
def flush [Api σ] (ctx : Context) : Step TableError (Session σ × BulkEditor) Unit :=
  Step.ofFn fun (s, e) =>
    if e.pending.isEmpty then (.ok (), s, e)
    else
      let request := (BulkOperation.delete e.definition e.pending).request
      let (r, s) := (Session.call (Api.postUnit ctx syncPath (.document request))).runFrom s
      (r, s, { e with pending := [] })

/-- Sends the keys and closes the deleter of the row store, even if the request failed. -/
def close [Api σ] (ctx : Context) : Step TableError (Session σ × BulkEditor) Unit := do
  let sent ← Step.attempt (flush ctx)
  let closed ← Step.attempt (onStore LocalDeleter.release)
  Step.ofExcept (do sent; closed)

/-- The calls of a delete statement over a table of the shop. -/
def calls [Api σ] (ctx : Context) : Deleter TableError (Session σ × BulkEditor) where
  begin := begin ctx
  delete := delete
  discard _ := discard
  complete := onStore LocalDeleter.release
  close := close ctx

end BulkEditor

end ShopTables
