import ShopTables.Proofs.Fallible
import ShopTables.Proofs.RowStore.Changes
import ShopTables.Proofs.Step

/-!
# Adding rows, all or none

Rows are added one after the other in a transaction, which is an outermost savepoint: if one of them
is refused the rows before it are taken off again, and with them their numbers (`addAll`). What
comes of this is what `insertAll` says at once (`runFrom_addAll`). So either all rows are added or
nothing at all has happened, and the latter just when a savepoint is open or the layout does not
admit one of the rows (`addAll_atomic`).
-/

namespace ShopTables

/-- Is nothing stored of a value? -/
def Value.storesNothing : Value → Bool
  | .null => true
  | .double x => x.isNaN
  | _ => false

theorem Cell.isNull_ofValue (v : Value) : (Cell.ofValue v).isNull = v.storesNothing := by
  cases v with
  | double x =>
    rw [ofValue, Value.storesNothing]
    split_ifs with hnan
    · rw [hnan]
      rfl
    · rw [Bool.not_eq_true] at hnan
      rw [hnan]
      rfl
  | _ => rfl

/-- No conversion makes something of nothing or nothing of something. -/
theorem StorageType.isNull_coerce (t : StorageType) (c : Cell) :
    (t.coerce c).isNull = c.isNull := by
  have hnumber : ∀ c : Cell, c.asNumber.isNull = c.isNull := by
    intro c
    cases c with
    | text s =>
      rw [Cell.asNumber]
      cases NumericText.number? s.toList with
      | none => rfl
      | some n => cases n <;> rfl
    | _ => rfl
  have hinteger : ∀ c : Cell, c.asInteger.isNull = c.isNull := by
    intro c
    cases c with
    | real x =>
      rw [Cell.asInteger]
      cases Cell.integerOf? x <;> rfl
    | _ => rfl
  have hreal : ∀ c : Cell, c.asReal.isNull = c.isNull := by
    intro c
    cases c <;> rfl
  cases t with
  | text => cases c <;> rfl
  | blob => rfl
  | integer => rw [coerce, hinteger, hnumber]
  | real => rw [coerce, hreal, hinteger, hnumber]

namespace RowStore

variable {α : Type}

/-! ### Transactions -/

/-- A change of the store that may be refused. -/
def change (f : RowStore → Except StoreError RowStore) : Step StoreError RowStore Unit :=
  Step.ofFn fun s =>
    match f s with
    | .ok s' => (.ok (), s')
    | .error e => (.error e, s)

/-- A transaction does not begin below a savepoint. It keeps what a step changed, unless the step
failed. -/
def transaction (x : Step StoreError RowStore α) : Step StoreError RowStore α := do
  unless (← get).savepoints.isEmpty do throw .statementOpen
  modify (·.openSavepoint "transaction")
  match ← x.attempt with
  | .ok a =>
    change (·.release "transaction")
    return a
  | .error e =>
    change (·.rollback "transaction")
    throw e

/-- Adds rows one after the other, up to the first that is refused, and counts them. -/
def addEach : List Row → Step StoreError RowStore Nat
  | [] => return 0
  | row :: rows => do
    change (·.append row)
    return (← addEach rows) + 1

/-- Adds rows in a transaction, and counts them. -/
def addAll (rows : List Row) : Step StoreError RowStore Nat := transaction (addEach rows)

variable {s s' : RowStore} {x : Step StoreError RowStore α}

theorem runFrom_change_ok {f : RowStore → Except StoreError RowStore} (h : f s = .ok s') :
    (change f).runFrom s = (.ok (), s') := by
  rw [change, Step.runFrom_ofFn, h]

theorem runFrom_change_error {f : RowStore → Except StoreError RowStore} {e : StoreError}
    (h : f s = .error e) : (change f).runFrom s = (.error e, s) := by
  rw [change, Step.runFrom_ofFn, h]

theorem runFrom_transaction_open (h : s.savepoints ≠ []) :
    (transaction x).runFrom s = (.error .statementOpen, s) := by
  have hget : (get : Step StoreError RowStore RowStore).runFrom s = (.ok s, s) := rfl
  have hopen : s.savepoints.isEmpty = false := by simpa using h
  rw [transaction, Step.runFrom_bind_of_ok hget, hopen]
  rfl

/-- A transaction that begins is a step below a savepoint and the end of that savepoint. -/
theorem runFrom_transaction (h : s.savepoints = []) :
    (transaction x).runFrom s =
      match x.runFrom (s.openSavepoint "transaction") with
      | (.ok a, s') => (do change (·.release "transaction"); return a).runFrom s'
      | (.error e, s') => (do change (·.rollback "transaction"); throw e).runFrom s' := by
  have hget : (get : Step StoreError RowStore RowStore).runFrom s = (.ok s, s) := rfl
  have hopen : (modify (·.openSavepoint "transaction") : Step StoreError RowStore Unit).runFrom s
      = (.ok (), s.openSavepoint "transaction") := rfl
  rw [transaction, Step.runFrom_bind_of_ok hget, h, List.isEmpty_nil, if_pos rfl]
  dsimp only
  rw [Step.runFrom_bind_of_ok hopen, Step.runFrom_bind, Step.runFrom_attempt]
  rcases x.runFrom (s.openSavepoint "transaction") with ⟨r, s'⟩
  cases r <;> rfl

theorem runFrom_transaction_ok (h : s.savepoints = []) {a : α} {rows : List NumberedRow}
    (hx : x.runFrom (s.openSavepoint "transaction")
      = (.ok a, { s.openSavepoint "transaction" with stored := rows })) :
    (transaction x).runFrom s = (.ok a, { s with stored := rows }) := by
  have hrelease : (change (·.release "transaction")).runFrom
        { s.openSavepoint "transaction" with stored := rows }
      = (.ok (), { s with stored := rows }) :=
    runFrom_change_ok (release_innermost rfl)
  rw [runFrom_transaction h, hx]
  exact Step.runFrom_bind_of_ok hrelease

/-- What fails in a transaction is undone. -/
theorem runFrom_transaction_error (h : s.savepoints = []) {e : StoreError}
    {rows : List NumberedRow} (hx : x.runFrom (s.openSavepoint "transaction")
      = (.error e, { s.openSavepoint "transaction" with stored := rows })) :
    (transaction x).runFrom s = (.error e, s) := by
  have hrollback : (change (·.rollback "transaction")).runFrom
        { s.openSavepoint "transaction" with stored := rows }
      = (.ok (), s) :=
    runFrom_change_ok (rollback_innermost rfl)
  rw [runFrom_transaction h, hx]
  exact Step.runFrom_bind_of_ok hrollback

/-! ### Rows of a transaction -/

theorem runFrom_append_ok {row : Row} {cells : List Cell}
    (h : admitted s.name s.columns row = .ok cells) :
    (change (·.append row)).runFrom s = (.ok (), s.push cells) := by
  apply runFrom_change_ok
  rw [append_eq, h]
  rfl

theorem runFrom_append_error {row : Row} {e : StoreError}
    (h : admitted s.name s.columns row = .error e) :
    (change (·.append row)).runFrom s = (.error e, s) := by
  apply runFrom_change_error
  rw [append_eq, h]
  rfl

/-- If the layout admits all rows, all of them are added. Otherwise those before the first that is
refused are, and nothing but rows has changed. -/
theorem addEach_cases (s : RowStore) (rows : List Row) :
    (∃ added, rows.mapM (admitted s.name s.columns) = .ok added
        ∧ (addEach rows).runFrom s = (.ok rows.length, added.foldl push s))
      ∨ ∃ e stored, rows.mapM (admitted s.name s.columns) = .error e
        ∧ (addEach rows).runFrom s = (.error e, { s with stored }) := by
  induction rows generalizing s with
  | nil => exact .inl ⟨[], rfl, rfl⟩
  | cons row rows ih =>
    rw [List.mapM_cons]
    cases hrow : admitted s.name s.columns row with
    | error e =>
      exact .inr ⟨e, s.stored, rfl, Step.runFrom_bind_of_error (runFrom_append_error hrow)⟩
    | ok cells =>
      have hpush := runFrom_append_ok hrow
      rcases ih (s.push cells) with ⟨added, hadmits, hrun⟩ | ⟨e, stored, hrefuses, hrun⟩
      · have hrows : rows.mapM (admitted s.name s.columns) = .ok added := hadmits
        left
        refine ⟨cells :: added, ?_, ?_⟩
        · rw [hrows]
          rfl
        · rw [addEach, Step.runFrom_bind_of_ok hpush, Step.runFrom_bind_of_ok hrun]
          rfl
      · have hrows : rows.mapM (admitted s.name s.columns) = .error e := hrefuses
        right
        refine ⟨e, stored, ?_, ?_⟩
        · rw [hrows]
          rfl
        · rw [addEach, Step.runFrom_bind_of_ok hpush, Step.runFrom_bind_of_error hrun]
          rfl

theorem foldl_push_openSavepoint (s : RowStore) (name : String) (rows : List NumberedRow)
    (outer : List Savepoint) (added : List (List Cell)) :
    added.foldl push { s with savepoints := ⟨name, rows⟩ :: outer }
      = { added.foldl push s with savepoints := ⟨name, rows⟩ :: outer } := by
  induction added generalizing s with
  | nil => rfl
  | cons cells added ih => exact ih (s.push cells)

/-- The rows that are added get the numbers that follow. -/
theorem foldl_push_numbered (s : RowStore) (added : List (List Cell)) :
    ∃ new, added.foldl push s = { s with stored := s.stored ++ new } ∧ contents new = added
      ∧ new.map (·.number) = List.range' s.nextNumber added.length := by
  induction added generalizing s with
  | nil => exact ⟨[], by simp, rfl, rfl⟩
  | cons cells added ih =>
    obtain ⟨new, hfold, hcells, hnumbers⟩ := ih (s.push cells)
    have hnext : (s.push cells).nextNumber = s.nextNumber + 1 := by
      rw [nextNumber, push, List.getLast?_concat]
    refine ⟨⟨s.nextNumber, cells⟩ :: new, ?_, ?_, ?_⟩
    · rw [List.foldl_cons, hfold, List.append_cons]
      rfl
    · rw [contents, List.map_cons, ← contents, hcells]
    · rw [List.map_cons, hnumbers, hnext]
      rfl

/-- Adding rows in a transaction gives and leaves what adding them at once does. -/
theorem runFrom_addAll (s : RowStore) (rows : List Row) :
    (addAll rows).runFrom s =
      match s.insertAll rows with
      | .ok s' => (.ok rows.length, s')
      | .error e => (.error e, s) := by
  by_cases hclosed : s.savepoints = []
  · rw [insertAll_eq s rows hclosed]
    -- the transaction is begun in the same store, with a savepoint
    rcases addEach_cases (s.openSavepoint "transaction") rows with
      ⟨added, hadmits, hrun⟩ | ⟨e, stored, hrefuses, hrun⟩
    · have hrows : rows.mapM (admitted s.name s.columns) = .ok added := hadmits
      obtain ⟨new, hfold, -, -⟩ := foldl_push_numbered s added
      rw [openSavepoint, foldl_push_openSavepoint, hfold] at hrun
      rw [hrows]
      show _ = (Except.ok rows.length, added.foldl push s)
      rw [hfold]
      exact runFrom_transaction_ok hclosed hrun
    · have hrows : rows.mapM (admitted s.name s.columns) = .error e := hrefuses
      rw [hrows]
      exact runFrom_transaction_error hclosed hrun
  · rw [insertAll_open s rows hclosed]
    exact runFrom_transaction_open hclosed

/-! ### When rows are refused -/

theorem zip_keep (columns : List Column) (row : Row) :
    columns.zip (keep columns row)
      = (columns.zip row).map fun p => (p.1, p.1.storageType.coerce (Cell.ofValue p.2)) := by
  induction columns generalizing row with
  | nil => rfl
  | cons c columns ih =>
    cases row with
    | nil => rfl
    | cons v row => exact congrArg (List.cons _) (ih row)

/-- What is kept of a row is empty just where nothing is stored of it. -/
theorem find?_keep_eq_none_iff {columns : List Column} {row : Row} :
    (columns.zip (keep columns row)).find? (fun (c, cell) => !c.nullable && cell.isNull) = none
      ↔ ∀ p ∈ columns.zip row, p.1.nullable = false → p.2.storesNothing = false := by
  rw [zip_keep, List.find?_eq_none, List.forall_mem_map]
  simp [StorageType.isNull_coerce, Cell.isNull_ofValue]

/-- A layout refuses rows of another width, and rows of which nothing would be stored in a column
that must not be empty. -/
theorem exists_admitted_error_iff {table : String} {columns : List Column} {row : Row} :
    (∃ e, admitted table columns row = .error e)
      ↔ columns ≠ [] ∧ (row.length ≠ columns.length
        ∨ ∃ p ∈ columns.zip row, p.1.nullable = false ∧ p.2.storesNothing = true) := by
  have hfind := @find?_keep_eq_none_iff columns row
  rw [admitted]
  split_ifs with hempty hwidth
  · simp [List.isEmpty_iff.mp hempty]
  · have hne : columns ≠ [] := by simpa using hempty
    simp [hne, hwidth]
  · have hne : columns ≠ [] := by simpa using hempty
    cases hfound : (columns.zip (keep columns row)).find?
        fun (c, cell) => !c.nullable && cell.isNull with
    | none =>
      have hall := hfind.mp hfound
      simp only [reduceCtorEq, exists_false, false_iff, not_and, not_or, not_exists]
      refine fun _ => ⟨hwidth, fun p hp hnullable hnothing => ?_⟩
      rw [hall p hp hnullable] at hnothing
      cases hnothing
    | some found =>
      have hsome : ¬ ∀ p ∈ columns.zip row, p.1.nullable = false → p.2.storesNothing = false := by
        intro hall
        rw [hfind.mpr hall] at hfound
        cases hfound
      simp only [not_forall, Bool.not_eq_false] at hsome
      obtain ⟨p, hp, hnullable, hnothing⟩ := hsome
      exact ⟨fun _ => ⟨hne, .inr ⟨p, hp, hnullable, hnothing⟩⟩, fun _ => ⟨_, rfl⟩⟩

theorem isRowNotFound_of_admitted {table : String} {columns : List Column} {row : Row}
    {e : StoreError} (h : admitted table columns row = .error e) : e.isRowNotFound = false := by
  rw [admitted] at h
  split_ifs at h
  · obtain rfl := Except.error.inj h
    rfl
  · split at h
    · obtain rfl := Except.error.inj h
      rfl
    · cases h

theorem isRowNotFound_of_insertAll {s : RowStore} {rows : List Row} {e : StoreError}
    (h : s.insertAll rows = .error e) : e.isRowNotFound = false := by
  by_cases hclosed : s.savepoints = []
  · rw [insertAll_eq s rows hclosed] at h
    cases hadmits : rows.mapM (admitted s.name s.columns) with
    | ok added =>
      rw [hadmits] at h
      cases h
    | error e' =>
      rw [hadmits] at h
      obtain rfl := Except.error.inj h
      obtain ⟨_, _, _, -, -, hrow⟩ := mapM_eq_error_iff.mp hadmits
      exact isRowNotFound_of_admitted hrow
  · rw [insertAll_open s rows hclosed] at h
    obtain rfl := Except.error.inj h
    rfl

/-- Rows are refused just when a savepoint is open or the layout refuses one of them. -/
theorem exists_insertAll_error_iff {s : RowStore} {rows : List Row} :
    (∃ e, s.insertAll rows = .error e)
      ↔ s.savepoints ≠ [] ∨ ∃ row ∈ rows, ∃ e, admitted s.name s.columns row = .error e := by
  by_cases hclosed : s.savepoints = []
  · rw [insertAll_eq s rows hclosed, ← exists_mapM_error_iff]
    cases rows.mapM (admitted s.name s.columns) <;> simp [Except.map, hclosed]
  · simp [insertAll_open s rows hclosed, hclosed]

/-- Rows that are added stand behind those that are there. -/
theorem insertAll_ok {s s' : RowStore} {rows : List Row} (h : s.insertAll rows = .ok s') :
    ∃ new, s' = { s with stored := s.stored ++ new } ∧ contents new = rows.map (keep s.columns)
      ∧ new.map (·.number) = List.range' s.nextNumber rows.length := by
  have hclosed : s.savepoints = [] := by
    by_contra hopen
    rw [insertAll_open s rows hopen] at h
    cases h
  rw [insertAll_eq s rows hclosed] at h
  cases hadmits : rows.mapM (admitted s.name s.columns) with
  | error e =>
    rw [hadmits] at h
    cases h
  | ok added =>
    rw [hadmits] at h
    obtain ⟨new, hfold, hcells, hnumbers⟩ := foldl_push_numbered s added
    obtain rfl : added.foldl push s = s' := Except.ok.inj h
    rw [eq_map_keep_of_admitted hadmits] at hcells hnumbers
    rw [List.length_map] at hnumbers
    exact ⟨new, hfold, hcells, hnumbers⟩

/-- In whatever state a store is, and whatever statements are open on it: adding rows in a
transaction, which is what the call `insertAll` comes to, either adds all of them in order behind
those that are there, with the cells that their columns keep and the numbers that follow, and gives
their number; or it is refused, and then nothing has changed, so that all later calls are as if it
had not been made. It is refused just when a savepoint is open, or the table has columns and some
row is of another width or has nothing to store in a column that must not be empty. -/
theorem addAll_atomic {P : Type} [DecidableEq P] (s : RowStore) (deleters : P → LocalDeleter)
    (p : P) (rows : List Row) :
    ∃ result s', (addAll rows).runFrom s = (result, s')
      ∧ StoreCall.runShared (p, .insertAll rows) (s, deleters)
          = (result.map fun _ => (), s', deleters)
      ∧ (∀ n, result = .ok n → n = rows.length ∧ s'.size = s.size + n
          ∧ ∃ new, s' = { s with stored := s.stored ++ new }
            ∧ contents new = rows.map (keep s.columns)
            ∧ new.map (·.number) = List.range' s.nextNumber n)
      ∧ (∀ e, result = .error e → e.isRowNotFound = false ∧ s' = s
          ∧ ∀ later, runAll StoreCall.runShared ((p, .insertAll rows) :: later) (s, deleters)
            = (.error e :: (runAll StoreCall.runShared later (s, deleters)).1,
                (runAll StoreCall.runShared later (s, deleters)).2))
      ∧ ((∃ e, result = .error e) ↔ s.savepoints ≠ [] ∨ s.columns ≠ []
          ∧ ∃ row ∈ rows, row.length ≠ s.columns.length
            ∨ ∃ q ∈ s.columns.zip row, q.1.nullable = false ∧ q.2.storesNothing = true) := by
  have hrun := runFrom_addAll s rows
  have hrefused : (∃ e, s.insertAll rows = .error e) ↔ s.savepoints ≠ [] ∨ s.columns ≠ []
      ∧ ∃ row ∈ rows, row.length ≠ s.columns.length
        ∨ ∃ q ∈ s.columns.zip row, q.1.nullable = false ∧ q.2.storesNothing = true := by
    rw [exists_insertAll_error_iff]
    simp only [exists_admitted_error_iff, exists_and_left, and_left_comm]
  cases hinsert : s.insertAll rows with
  | ok s' =>
    rw [hinsert] at hrun hrefused
    obtain ⟨new, hs', hcells, hnumbers⟩ := insertAll_ok hinsert
    refine ⟨.ok rows.length, s', hrun, ?_, ?_, ?_, ?_⟩
    · simp [StoreCall.runShared, StoreCall.run, hinsert, Except.map]
    · intro n hn
      obtain rfl := Except.ok.inj hn
      have hsize : new.length = rows.length := by
        rw [← List.length_map (f := (·.number)), hnumbers, List.length_range']
      refine ⟨rfl, ?_, new, hs', hcells, hnumbers⟩
      rw [hs', size, size, List.length_append, hsize]
    · intro e he
      cases he
    · rw [← hrefused]
      simp
  | error e =>
    rw [hinsert] at hrun hrefused
    have hcall : StoreCall.runShared (p, .insertAll rows) (s, deleters)
        = (.error e, s, deleters) := by
      simp [StoreCall.runShared, StoreCall.run, hinsert]
    refine ⟨.error e, s, hrun, hcall, ?_, ?_, ?_⟩
    · intro n hn
      cases hn
    · intro e' he
      obtain rfl := Except.error.inj he
      refine ⟨isRowNotFound_of_insertAll hinsert, rfl, fun later => ?_⟩
      rw [runAll, hcall]
    · rw [← hrefused]
      simp

end RowStore

end ShopTables
