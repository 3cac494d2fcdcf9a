import ShopTables.RowStore.Deleter

/-!
# The calls of a local deleter, one by one

What each call of a `LocalDeleter` does to the store and to the deleter: without a savepoint of its
own it only deletes; with one that is the innermost, it gives the savepoint up, and either keeps
the rows or takes them back.
-/

namespace ShopTables

namespace RowStore

variable {s : RowStore} {name : String} {rows : List NumberedRow} {outer : List Savepoint}

theorem findSavepoint?_self (name : String) (rows : List NumberedRow) (outer : List Savepoint) :
    findSavepoint? name (⟨name, rows⟩ :: outer) = some (⟨name, rows⟩, outer) := by
  rw [findSavepoint?, if_pos rfl]

theorem release_innermost (h : s.savepoints = ⟨name, rows⟩ :: outer) :
    s.release name = .ok { s with savepoints := outer } := by
  rw [release, h, findSavepoint?_self]

theorem rollback_innermost (h : s.savepoints = ⟨name, rows⟩ :: outer) :
    s.rollback name = .ok { s with stored := rows, savepoints := outer } := by
  rw [rollback, h, findSavepoint?_self]

end RowStore

namespace LocalDeleter

variable {s : RowStore} {name : String} {rows : List NumberedRow} {outer : List Savepoint}

theorem runFrom_begin_idle (ctx : Context) (s : RowStore) :
    (begin ctx).runFrom (s, ⟨none⟩)
      = (.ok (), s.openSavepoint (savepointName ctx), ⟨some (savepointName ctx)⟩) := rfl

theorem runFrom_begin_within (ctx : Context) (s : RowStore) (name : String) :
    (begin ctx).runFrom (s, ⟨some name⟩) = (.ok (), s, ⟨some name⟩) := rfl

theorem runFrom_delete_ok {s' : RowStore} {row : Row} (h : s.deleteRow row = .ok s')
    (d : LocalDeleter) : (delete row).runFrom (s, d) = (.ok (), s', d) := by
  rw [delete, Step.runFrom_ofFn]
  dsimp only
  rw [h]

theorem runFrom_delete_error {e : StoreError} {row : Row} (h : s.deleteRow row = .error e)
    (d : LocalDeleter) : (delete row).runFrom (s, d) = (.error e, s, d) := by
  rw [delete, Step.runFrom_ofFn]
  dsimp only
  rw [h]

theorem runFrom_release_idle (s : RowStore) : release.runFrom (s, ⟨none⟩) = (.ok (), s, ⟨none⟩) :=
  rfl

/-- Discarding brings the rows of the savepoint back. -/
theorem runFrom_discard_within (h : s.savepoints = ⟨name, rows⟩ :: outer) :
    discard.runFrom (s, ⟨some name⟩)
      = (.ok (), { s with stored := rows, savepoints := outer }, ⟨none⟩) := by
  rw [discard, finishWith, Step.runFrom_ofFn]
  dsimp only
  rw [RowStore.rollback_innermost h]

/-- Completing and closing keep the rows. -/
theorem runFrom_release_within (h : s.savepoints = ⟨name, rows⟩ :: outer) :
    release.runFrom (s, ⟨some name⟩) = (.ok (), { s with savepoints := outer }, ⟨none⟩) := by
  rw [release, finishWith, Step.runFrom_ofFn]
  dsimp only
  rw [RowStore.release_innermost h]

end LocalDeleter

end ShopTables
