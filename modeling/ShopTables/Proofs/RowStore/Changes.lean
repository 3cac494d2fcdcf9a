import ShopTables.Proofs.Fallible
import ShopTables.Proofs.RowStore.SharedStore

/-!
# What calls do to the rows

Whoever makes a call, and whatever deleters and savepoints there are, a call adds rows, takes some
off, opens a savepoint, or ends one with the rows as they are or as they were (`Changes`). So after
any calls, and however statements are entangled, the rows are some of those that were added, in the
order in which they were (`Traced.runShared`).
-/

namespace ShopTables

/-- The rows that a call added, from what it gave. -/
def StoreCall.added : StoreCall → Except StoreError Unit → List Row
  | .insertAll rows, .ok _ => rows
  | _, _ => []

/-- The rows that calls added, from what they gave. -/
def insertedBy {P : Type} (calls : List (P × StoreCall)) (results : List (Except StoreError Unit)) :
    List Row :=
  (calls.zip results).flatMap fun (call, result) => call.2.added result

namespace RowStore

/-- What a call may make of a store, and the rows that it adds. -/
inductive Changes (s : RowStore) : List Row → RowStore → Prop where
  | same : Changes s [] s
  | added {rows : List Row} {cells : List (List Cell)} (closed : s.savepoints = [])
      (admits : rows.mapM (admitted s.name s.columns) = .ok cells) :
      Changes s rows (cells.foldl push s)
  | opened (name : String) : Changes s [] (s.openSavepoint name)
  | deleted {row : Row} {s' : RowStore} (deletes : s.deleteRow row = .ok s') : Changes s [] s'
  | ended {name : String} {p : Savepoint} {outer : List Savepoint} {rows : List NumberedRow}
      (found : findSavepoint? name s.savepoints = some (p, outer))
      (restored : rows = s.stored ∨ rows = p.rows) :
      Changes s [] { s with stored := rows, savepoints := outer }

theorem mem_of_findSavepoint? {name : String} {savepoints outer : List Savepoint} {p : Savepoint}
    (h : findSavepoint? name savepoints = some (p, outer)) : p ∈ savepoints := by
  induction savepoints with
  | nil => cases h
  | cons q savepoints ih =>
    rw [findSavepoint?] at h
    split_ifs at h
    · obtain ⟨rfl, -⟩ := Prod.mk.inj (Option.some.inj h)
      exact List.mem_cons_self
    · exact List.mem_cons_of_mem q (ih h)

/-! ### Each call -/

theorem changes_insertAll (s : RowStore) (d : LocalDeleter) (rows : List Row) :
    Changes s ((StoreCall.insertAll rows).added ((StoreCall.insertAll rows).run (s, d)).1)
      ((StoreCall.insertAll rows).run (s, d)).2.1 := by
  rw [StoreCall.run]
  by_cases hclosed : s.savepoints = []
  · rw [insertAll_eq s rows hclosed]
    cases hadmits : rows.mapM (admitted s.name s.columns) with
    | error e => exact .same
    | ok cells => exact .added hclosed hadmits
  · rw [insertAll_open s rows hclosed]
    exact .same

theorem changes_begin (s : RowStore) (d : LocalDeleter) (ctx : Context) :
    Changes s [] ((LocalDeleter.begin ctx).runFrom (s, d)).2.1 := by
  obtain ⟨_ | name⟩ := d
  · exact .opened _
  · exact .same

theorem changes_delete (s : RowStore) (d : LocalDeleter) (row : Row) :
    Changes s [] ((LocalDeleter.delete row).runFrom (s, d)).2.1 := by
  cases hdeletes : s.deleteRow row with
  | error e =>
    rw [LocalDeleter.runFrom_delete_error hdeletes]
    exact .same
  | ok s' =>
    rw [LocalDeleter.runFrom_delete_ok hdeletes]
    exact .deleted hdeletes

theorem changes_discard (s : RowStore) (d : LocalDeleter) :
    Changes s [] (LocalDeleter.discard.runFrom (s, d)).2.1 := by
  obtain ⟨_ | name⟩ := d
  · exact .same
  · rw [LocalDeleter.discard, LocalDeleter.finishWith, Step.runFrom_ofFn]
    dsimp only
    rw [rollback]
    cases hfound : findSavepoint? name s.savepoints with
    | none => exact .same
    | some found => exact .ended hfound (.inr rfl)

theorem changes_release (s : RowStore) (d : LocalDeleter) :
    Changes s [] (LocalDeleter.release.runFrom (s, d)).2.1 := by
  obtain ⟨_ | name⟩ := d
  · exact .same
  · rw [LocalDeleter.release, LocalDeleter.finishWith, Step.runFrom_ofFn]
    dsimp only
    rw [release]
    cases hfound : findSavepoint? name s.savepoints with
    | none => exact .same
    | some found => exact .ended hfound (.inl rfl)

theorem changes_run (c : StoreCall) (s : RowStore) (d : LocalDeleter) :
    Changes s (c.added (c.run (s, d)).1) (c.run (s, d)).2.1 := by
  cases c with
  | insertAll rows => exact changes_insertAll s d rows
  | begin ctx => exact changes_begin s d ctx
  | delete ctx row => exact changes_delete s d row
  | discard ctx cause => exact changes_discard s d
  | complete ctx => exact changes_release s d
  | close ctx => exact changes_release s d

/-- Calls change neither the layout nor the number of partitions. -/
theorem Changes.frame {s s' : RowStore} {added : List Row} (h : Changes s added s') :
    s'.name = s.name ∧ s'.columns = s.columns ∧ s'.partitionCount = s.partitionCount := by
  cases h with
  | same => exact ⟨rfl, rfl, rfl⟩
  | @added _ cells closed admits =>
    obtain ⟨rows, hfold, -⟩ := foldl_push s cells
    rw [hfold]
    exact ⟨rfl, rfl, rfl⟩
  | opened name => exact ⟨rfl, rfl, rfl⟩
  | deleted deletes =>
    obtain ⟨rows, -, rfl⟩ := deleteRow_frame deletes
    exact ⟨rfl, rfl, rfl⟩
  | ended found restored => exact ⟨rfl, rfl, rfl⟩

theorem frame_runShared {P : Type} [DecidableEq P] (s : RowStore) (deleters : P → LocalDeleter)
    (calls : List (P × StoreCall)) :
    (runAll StoreCall.runShared calls (s, deleters)).2.1.name = s.name
      ∧ (runAll StoreCall.runShared calls (s, deleters)).2.1.columns = s.columns
      ∧ (runAll StoreCall.runShared calls (s, deleters)).2.1.partitionCount
          = s.partitionCount := by
  induction calls generalizing s deleters with
  | nil => exact ⟨rfl, rfl, rfl⟩
  | cons call calls ih =>
    obtain ⟨p, c⟩ := call
    obtain ⟨hname, hcolumns, hcount⟩ := (changes_run c s (deleters p)).frame
    obtain ⟨hname', hcolumns', hcount'⟩ := ih _ (StoreCall.runShared (p, c) (s, deleters)).2.2
    exact ⟨hname'.trans hname, hcolumns'.trans hcolumns, hcount'.trans hcount⟩

/-! ### Rows and the rows that were added -/

/-- Rows are some of those that were added, in that order, and numbered. -/
structure RowsAmong (columns : List Column) (inserted : List Row) (rows : List NumberedRow) :
    Prop where
  numbered : Numbered rows
  sublist : (contents rows).Sublist (inserted.map (keep columns))

/-- The rows of a store, and those that its savepoints bring back, are among those that were
added. -/
structure Traced (inserted : List Row) (s : RowStore) : Prop where
  stored : RowsAmong s.columns inserted s.stored
  saved : ∀ p ∈ s.savepoints, RowsAmong s.columns inserted p.rows

variable {inserted added : List Row}

namespace RowsAmong

variable {columns : List Column} {rows rows' : List NumberedRow}

theorem part (h : RowsAmong columns inserted rows) (hsub : rows'.Sublist rows) :
    RowsAmong columns inserted rows' :=
  ⟨h.numbered.sublist hsub, (hsub.map _).trans h.sublist⟩

theorem mono (h : RowsAmong columns inserted rows) (added : List Row) :
    RowsAmong columns (inserted ++ added) rows := by
  refine ⟨h.numbered, h.sublist.trans ?_⟩
  rw [List.map_append]
  exact List.sublist_append_left _ _

end RowsAmong

theorem eq_map_keep_of_admitted {table : String} {columns : List Column} {rows : List Row}
    {cells : List (List Cell)} (h : rows.mapM (admitted table columns) = .ok cells) :
    cells = rows.map (keep columns) := by
  have hall : List.Forall₂ (fun row kept => kept = keep columns row) rows cells :=
    (forall₂_of_mapM_ok h).imp fun row kept hrow => eq_keep_of_admitted hrow
  clear h
  induction hall with
  | nil => rfl
  | cons hrow _ ih => rw [List.map_cons, hrow, ih]

namespace Traced

variable {s s' : RowStore}

theorem of_create {table : String} {columns : List Column} {partitions : Nat}
    (h : create table columns partitions = .ok s) : Traced [] s := by
  obtain ⟨-, rfl⟩ := create_eq_ok.mp h
  exact ⟨⟨.nil, .slnil⟩, by simp⟩

/-- What one call keeps. -/
theorem changes (h : Traced inserted s) (hchanges : Changes s added s') :
    Traced (inserted ++ added) s' := by
  obtain ⟨hstored, hsaved⟩ := h
  cases hchanges with
  | same =>
    rw [List.append_nil]
    exact ⟨hstored, hsaved⟩
  | added closed admits =>
    obtain rfl := eq_map_keep_of_admitted admits
    obtain ⟨rows, hfold, hcells, hnumbered⟩ := foldl_push s (added.map (keep s.columns))
    have hcontents : contents (s.stored ++ rows)
        = contents s.stored ++ added.map (keep s.columns) := by
      rw [contents, contents, List.map_append, hcells]
    rw [hfold]
    refine ⟨⟨hnumbered hstored.numbered, ?_⟩, fun p hp => (hsaved p hp).mono added⟩
    rw [hcontents, List.map_append]
    exact hstored.sublist.append_right _
  | opened name =>
    rw [List.append_nil]
    refine ⟨hstored, fun p hp => ?_⟩
    rcases List.mem_cons.mp hp with rfl | hp
    · exact hstored
    · exact hsaved p hp
  | deleted deletes =>
    obtain ⟨rows, hsub, rfl⟩ := deleteRow_frame deletes
    rw [List.append_nil]
    exact ⟨hstored.part hsub, hsaved⟩
  | @ended name p outer rows found restored =>
    have hsubset := subset_of_findSavepoint? found
    have hp := mem_of_findSavepoint? found
    rw [List.append_nil]
    refine ⟨?_, fun q hq => hsaved q (hsubset hq)⟩
    rcases restored with rfl | rfl
    · exact hstored
    · exact hsaved p hp

end Traced

/-- After any calls, whoever makes them, the rows are among those that were added. -/
theorem Traced.runShared {P : Type} [DecidableEq P] {s : RowStore} (h : Traced inserted s)
    (deleters : P → LocalDeleter) (calls : List (P × StoreCall)) :
    Traced (inserted ++ insertedBy calls (runAll StoreCall.runShared calls (s, deleters)).1)
      (runAll StoreCall.runShared calls (s, deleters)).2.1 := by
  induction calls generalizing inserted s deleters with
  | nil =>
    show Traced (inserted ++ []) s
    rw [List.append_nil]
    exact h
  | cons call calls ih =>
    obtain ⟨p, c⟩ := call
    have hcall : Traced _ (StoreCall.runShared (p, c) (s, deleters)).2.1 :=
      h.changes (changes_run c s (deleters p))
    have hrest := ih hcall (StoreCall.runShared (p, c) (s, deleters)).2.2
    rw [List.append_assoc] at hrest
    exact hrest

end RowStore

end ShopTables
