import ShopTables.RowStore.Basic
import ShopTables.Statement

/-!
# Deleting from a row store

A `LocalDeleter` takes the calls of a delete statement to a row store. It opens a savepoint when
the statement begins, unless it has one open, and forgets it when the statement is completed,
discarded or closed, even if the store does not know it any more. Rows are deleted at once, also
outside a statement.
-/

namespace ShopTables

/-- The deleter of one statement over a row store. -/
structure LocalDeleter where
  /-- The savepoint it opened. -/
  savepoint : Option String := none
  deriving DecidableEq

namespace LocalDeleter

def savepointName (ctx : Context) : String := "stmt_" ++ ctx.id

/-- Opens a savepoint, unless one is open. -/
def begin (ctx : Context) : Step StoreError (RowStore × LocalDeleter) Unit :=
  Step.ofFn fun (s, d) =>
    match d.savepoint with
    | some _ => (.ok (), s, d)
    | none => (.ok (), s.openSavepoint (savepointName ctx), ⟨some (savepointName ctx)⟩)

/-- Ends the savepoint in the way of `finish`, and forgets it. -/
def finishWith (finish : RowStore → String → Except StoreError RowStore) :
    Step StoreError (RowStore × LocalDeleter) Unit :=
  Step.ofFn fun (s, d) =>
    match d.savepoint with
    | none => (.ok (), s, d)
    | some name =>
      match finish s name with
      | .ok s' => (.ok (), s', {})
      | .error e => (.error e, s, {})

def delete (row : Row) : Step StoreError (RowStore × LocalDeleter) Unit :=
  Step.ofFn fun (s, d) =>
    match s.deleteRow row with
    | .ok s' => (.ok (), s', d)
    | .error e => (.error e, s, d)

def discard : Step StoreError (RowStore × LocalDeleter) Unit := finishWith RowStore.rollback

def release : Step StoreError (RowStore × LocalDeleter) Unit := finishWith RowStore.release

/-- The calls of a delete statement over a row store. -/
def calls (ctx : Context) : Deleter StoreError (RowStore × LocalDeleter) where
  begin := begin ctx
  delete := delete
  discard _ := discard
  complete := release
  close := release

end LocalDeleter

end ShopTables
