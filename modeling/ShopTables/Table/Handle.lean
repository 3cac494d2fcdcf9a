import ShopTables.Table.BulkEditor

/-!
# Table handles

A handle is a table as one statement uses it. Reading its partitions reads the table from the
shop anew; the rows of a partition and the deleter are those of the last reading. A handle of its
own has read nothing yet.
-/

namespace ShopTables

/-- A table in the hands of one statement. -/
structure TableHandle where
  definition : TableDefinition
  /-- How many partitions its rows are split into. -/
  partitionCount : Nat
  /-- The number of the row store last read. -/
  memory : Option Nat := none

namespace TableHandle

variable {σ : Type}

/-- A handle to the same table, for another statement. -/
def fresh (h : TableHandle) : TableHandle := { h with memory := none }

def description (h : TableHandle) : String :=
  "AdminTable \x7b name: " ++ Text.quoted h.definition.name ++ ", columns: "
    ++ toString h.definition.columns.length ++ ", is_mapping: " ++ toString h.definition.isMapping
    ++ " \x7d"

/-- The row store last read, if any. -/
def materialized? (s : Session σ) (h : TableHandle) : Option RowStore := h.memory.bind s.store?

/-- Reads the table and gives the partitions of its new row store. -/
def partitions [Api σ] (ctx : Context) : Step TableError (Session σ × TableHandle) (List Nat) :=
  Step.ofFn fun (s, h) =>
    match (Session.materialize ctx h.definition h.partitionCount).runFrom s with
    | (.error e, s) => (.error e, s, h)
    | (.ok number, s) =>
      let h := { h with memory := some number }
      match h.materialized? s with
      | some store => (.ok store.partitions, s, h)
      | none => (.error (.notMaterialized h.definition.name), s, h)

/-- The rows of a partition of the row store last read. -/
def partitionRows (partition : Nat) : Step TableError (Session σ × TableHandle) (List Row) :=
  Step.ofFn fun (s, h) =>
    match h.materialized? s with
    | some store => (.ok (store.partitionRows partition), s, h)
    | none => (.error (.notMaterialized h.definition.name), s, h)

def openDeleter : Step TableError (Session σ × TableHandle) BulkEditor :=
  Step.ofFn fun (s, h) =>
    match h.memory with
    | some number => (.ok { definition := h.definition, store := number }, s, h)
    | none => (.error (.notMaterialized h.definition.name), s, h)

/-- The calls of a statement over a table of the shop. -/
def target [Api σ] (ctx : Context) :
    Target TableError (Session σ × TableHandle) Nat BulkEditor where
  partitions := partitions ctx
  rows := partitionRows
  openDeleter := openDeleter
  deleter :=
    let calls := BulkEditor.calls ctx
    let lift {α : Type} (x : Step TableError (Session σ × BulkEditor) α) :
        Step TableError ((Session σ × TableHandle) × BulkEditor) α :=
      x.within (fun ((s, _), e) => (s, e)) fun (s, e) ((_, h), _) => ((s, h), e)
    { begin := lift calls.begin
      delete := fun row => lift (calls.delete row)
      discard := fun cause => lift (calls.discard cause)
      complete := lift calls.complete
      close := lift calls.close }

def scan [Api σ] (ctx : Context) : Step TableError (Session σ × TableHandle) (List Row) :=
  (target ctx).scan

/-- Deletes the rows that a predicate accepts, here and in the shop, and counts them. -/
def deleteMatching [Api σ] (ctx : Context)
    (accept : Row → StateM (Session σ × TableHandle) Bool) :
    Step TableError (Session σ × TableHandle) Nat :=
  (target ctx).deleteMatching accept

end TableHandle

end ShopTables
