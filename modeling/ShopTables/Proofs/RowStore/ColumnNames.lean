import ShopTables.Proofs.RowStore.Changes

/-!
# Columns under other names

```
    store  --call-->  store₁
      |                  |
  withColumns        withColumns
      |                  |
    store' --call-->  store₁'
```

Two layouts that agree in everything but the names of their columns (`Column.anonymous`) make
stores that keep step through every run of calls (`runShared_renamed`), except that an empty cell
is refused by the column's own name (`SameButName`). Only one name means something to a store: a
column called `rowid` hides the row numbers, so both layouts must have it at the same place
(`numberPlace`), or have no such column. If they have none, a delete takes off one row and every row
is in one partition; with such a column neither holds (`renamed_rowid`).
-/

namespace ShopTables

/-- A column without its name. -/
def Column.anonymous (c : Column) : Column := { c with name := "" }

namespace RowStore

/-- The place of the column that hides the row numbers. -/
def numberPlace (columns : List Column) : Option Nat :=
  columns.findIdx? fun c => Text.lowerAscii c.name == "rowid"

/-- The same store with its columns called otherwise. -/
def withColumns (s : RowStore) (columns : List Column) : RowStore := { s with columns }

/-- The results are the same, or both columns of a pair refuse an empty cell. -/
inductive SameButName {α : Type} (columns columns' : List Column) :
    Except StoreError α → Except StoreError α → Prop where
  | same (result : Except StoreError α) : SameButName columns columns' result result
  | emptyCell (table : String) {c c' : Column} (pair : (c, c') ∈ columns.zip columns') :
      SameButName columns columns' (.error (.emptyCell table c.name))
        (.error (.emptyCell table c'.name))

variable {columns columns' : List Column}

theorem SameButName.map {α β : Type} {result result' : Except StoreError α}
    (h : SameButName columns columns' result result') (f : α → β) :
    SameButName columns columns' (result.map f) (result'.map f) := by
  cases h with
  | same => exact .same _
  | emptyCell table pair => exact .emptyCell table pair

/-! ### What does not depend on names -/

theorem keep_anonymous (columns : List Column) (row : Row) :
    keep (columns.map Column.anonymous) row = keep columns row := by
  rw [keep, List.zip_map_left, List.map_map]
  rfl

theorem readBack_anonymous (columns : List Column) (cells : List Cell) :
    readBack (columns.map Column.anonymous) cells = readBack columns cells := by
  rw [readBack, List.zip_map_left, List.map_map]
  rfl

theorem keyColumns_anonymous (columns : List Column) :
    keyColumns (columns.map Column.anonymous)
      = (keyColumns columns).map (Prod.map Column.anonymous id) := by
  have hprimary : ((columns.map Column.anonymous).zipIdx.filter (·.1.primaryKey))
      = (columns.zipIdx.filter (·.1.primaryKey)).map (Prod.map Column.anonymous id) := by
    rw [List.zipIdx_map, List.filter_map]
    rfl
  unfold keyColumns
  dsimp only
  rw [hprimary, List.isEmpty_map]
  split_ifs
  · exact List.zipIdx_map ..
  · rfl

theorem hasKey_anonymous (columns : List Column) (row : Row) (cells : List Cell) :
    hasKey (columns.map Column.anonymous) row cells = hasKey columns row cells := by
  rw [hasKey, keyColumns_anonymous, List.all_map]
  rfl

section

variable (h : columns.map Column.anonymous = columns'.map Column.anonymous)

include h

theorem length_eq_of_anonymous : columns.length = columns'.length := by
  have hlength := congrArg List.length h
  rwa [List.length_map, List.length_map] at hlength

theorem keep_renamed (row : Row) : keep columns' row = keep columns row := by
  rw [← keep_anonymous columns', ← h, keep_anonymous]

theorem readBack_renamed (cells : List Cell) : readBack columns' cells = readBack columns cells := by
  rw [← readBack_anonymous columns', ← h, readBack_anonymous]

theorem find?_emptyCell_renamed (cells : List Cell) :
    ((columns.zip cells).find? (fun (c, cell) => !c.nullable && cell.isNull) = none
        ∧ (columns'.zip cells).find? (fun (c, cell) => !c.nullable && cell.isNull) = none)
      ∨ ∃ c c' cell, (c, c') ∈ columns.zip columns'
        ∧ (columns.zip cells).find? (fun (c, cell) => !c.nullable && cell.isNull) = some (c, cell)
        ∧ (columns'.zip cells).find? (fun (c, cell) => !c.nullable && cell.isNull)
            = some (c', cell) := by
  induction columns generalizing columns' cells with
  | nil =>
    obtain rfl : columns' = [] := List.map_eq_nil_iff.mp h.symm
    exact .inl ⟨rfl, rfl⟩
  | cons c columns ih =>
    cases columns' with
    | nil => cases h
    | cons c' columns' =>
      obtain ⟨hc, hrest⟩ := List.cons.inj h
      have hnullable : c'.anonymous.nullable = c.anonymous.nullable := by rw [hc]
      have hnullable : c'.nullable = c.nullable := hnullable
      cases cells with
      | nil => exact .inl ⟨rfl, rfl⟩
      | cons cell cells =>
        rw [List.zip_cons_cons, List.zip_cons_cons, List.find?_cons, List.find?_cons]
        dsimp only
        rw [hnullable]
        cases !c.nullable && cell.isNull with
        | true => exact .inr ⟨c, c', cell, List.mem_cons_self, rfl, rfl⟩
        | false =>
          obtain hnone | ⟨d, d', other, hmem, hfound⟩ := ih hrest cells
          · exact .inl hnone
          · exact .inr ⟨d, d', other, List.mem_cons_of_mem _ hmem, hfound⟩

theorem admitted_renamed (table : String) (row : Row) :
    SameButName columns columns' (admitted table columns row) (admitted table columns' row) := by
  have hlength := length_eq_of_anonymous h
  have hempty : columns'.isEmpty = columns.isEmpty := by
    rw [← List.isEmpty_map (f := Column.anonymous), ← h, List.isEmpty_map]
  rw [admitted, admitted, keep_renamed h, hempty, ← hlength]
  split_ifs
  · exact .same _
  · exact .same _
  · obtain ⟨hnone, hnone'⟩ | ⟨c, c', cell, hmem, hsome, hsome'⟩ :=
      find?_emptyCell_renamed h (keep columns row)
    · rw [hnone, hnone']
      exact .same _
    · rw [hsome, hsome']
      exact .emptyCell table hmem

theorem mapM_admitted_renamed (table : String) (rows : List Row) :
    SameButName columns columns' (rows.mapM (admitted table columns))
      (rows.mapM (admitted table columns')) := by
  -- the first row that is refused is refused by both
  induction rows with
  | nil => exact .same _
  | cons row rows ih =>
    rw [List.mapM_cons, List.mapM_cons]
    generalize hfirst : admitted table columns row = first
    generalize hfirst' : admitted table columns' row = first'
    have hrow := admitted_renamed h table row
    rw [hfirst, hfirst'] at hrow
    cases hrow with
    | emptyCell table pair => exact .emptyCell table pair
    | same first =>
      cases first with
      | error e => exact .same _
      | ok cells => exact ih.map (cells :: ·)

end

/-! ### What a store does under other names -/

theorem withColumns_foldl_push (s : RowStore) (columns : List Column)
    (added : List (List Cell)) :
    added.foldl push (s.withColumns columns) = (added.foldl push s).withColumns columns := by
  induction added generalizing s with
  | nil => rfl
  | cons cells added ih => exact ih (s.push cells)

section

variable {s : RowStore} (h : s.columns.map Column.anonymous = columns'.map Column.anonymous)

include h

theorem keyOrdinals_withColumns : (s.withColumns columns').keyOrdinals = s.keyOrdinals := by
  have hkey := congrArg (fun columns => (keyColumns columns).map (·.2)) h
  rw [keyColumns_anonymous, keyColumns_anonymous, List.map_map, List.map_map] at hkey
  rw [keyOrdinals_eq, keyOrdinals_eq]
  exact hkey.symm

theorem hasKeyOf_withColumns (row : Row) :
    (s.withColumns columns').hasKeyOf row = s.hasKeyOf row := by
  funext r
  rw [hasKeyOf_eq, hasKeyOf_eq, ← hasKey_anonymous s.columns, h, hasKey_anonymous]
  rfl

theorem valuesOf_withColumns : (s.withColumns columns').valuesOf = s.valuesOf :=
  funext fun r => readBack_renamed h r.cells

theorem insertAll_withColumns (rows : List Row) :
    SameButName s.columns columns' ((s.insertAll rows).map fun s' => s'.withColumns columns')
      ((s.withColumns columns').insertAll rows) := by
  by_cases hclosed : s.savepoints = []
  · have hpush : (fun added : List (List Cell) => added.foldl push (s.withColumns columns'))
        = fun added => (added.foldl push s).withColumns columns' :=
      funext (withColumns_foldl_push s columns')
    have hmap : ((rows.mapM (admitted s.name s.columns)).map fun added => added.foldl push s).map
          (fun s' => s'.withColumns columns')
        = (rows.mapM (admitted s.name s.columns)).map
          fun added => (added.foldl push s).withColumns columns' := by
      cases rows.mapM (admitted s.name s.columns) <;> rfl
    rw [insertAll_eq s rows hclosed, insertAll_eq (s.withColumns columns') rows hclosed, hpush, hmap]
    exact (mapM_admitted_renamed h s.name rows).map _
  · rw [insertAll_open s rows hclosed, insertAll_open (s.withColumns columns') rows hclosed]
    exact .same _

end

section

variable {s : RowStore} (h : s.columns.map Column.anonymous = columns'.map Column.anonymous)
  (hplace : numberPlace s.columns = numberPlace columns')

include hplace

theorem numberOf_withColumns : (s.withColumns columns').numberOf = s.numberOf := by
  have hcolumn : (s.withColumns columns').numberColumn? = s.numberColumn? := hplace.symm
  funext r
  rw [numberOf, numberOf, hcolumn]

theorem ordered_withColumns : (s.withColumns columns').ordered = s.ordered := by
  have hcolumn : (s.withColumns columns').numberColumn? = s.numberColumn? := hplace.symm
  rw [ordered, ordered, hcolumn, numberOf_withColumns hplace]
  rfl

include h

theorem partitionRows_withColumns (i : Nat) :
    (s.withColumns columns').partitionRows i = s.partitionRows i := by
  rw [partitionRows, partitionRows, ordered_withColumns hplace, numberOf_withColumns hplace,
    valuesOf_withColumns h]
  rfl

theorem rows_withColumns : (s.withColumns columns').rows = s.rows := by
  rw [rows, rows, funext (partitionRows_withColumns h hplace)]
  rfl

theorem deleteRow_withColumns (row : Row) :
    (s.withColumns columns').deleteRow row
      = (s.deleteRow row).map fun s' => s'.withColumns columns' := by
  have hgoes : (s.withColumns columns').goesWith = s.goesWith := by
    funext r other
    rw [goesWith, goesWith, numberOf_withColumns hplace]
  unfold deleteRow
  rw [keyOrdinals_withColumns h, hasKeyOf_withColumns h, numberOf_withColumns hplace, hgoes]
  split_ifs
  · rfl
  · have hstored : (s.withColumns columns').stored = s.stored := rfl
    rw [hstored]
    cases s.stored.find? (s.hasKeyOf row) with
    | none => rfl
    | some r =>
      dsimp only
      split_ifs
      · rfl
      · rfl

/-! ### Each call, and runs -/

/-- What calls of both stores give, and how the stores still stand to each other. -/
structure KeepStep (columns columns' : List Column) {δ : Type}
    (run run' : Except StoreError Unit × RowStore × δ) : Prop where
  results : SameButName columns columns' run.1 run'.1
  store : run'.2.1 = run.2.1.withColumns columns'
  deleters : run'.2.2 = run.2.2

omit hplace in
theorem keepStep_insertAll (rows : List Row) (d : LocalDeleter) :
    KeepStep s.columns columns' ((StoreCall.insertAll rows).run (s, d))
      ((StoreCall.insertAll rows).run (s.withColumns columns', d)) := by
  have hinsert := insertAll_withColumns h rows
  rw [StoreCall.run, StoreCall.run]
  generalize (s.withColumns columns').insertAll rows = result' at hinsert ⊢
  cases hrows : s.insertAll rows with
  | error e =>
    rw [hrows] at hinsert
    cases hinsert with
    | same => exact ⟨.same _, rfl, rfl⟩
    | emptyCell table pair => exact ⟨.emptyCell table pair, rfl, rfl⟩
  | ok s' =>
    rw [hrows] at hinsert
    cases hinsert with
    | same => exact ⟨.same _, rfl, rfl⟩

theorem keepStep_delete (row : Row) (d : LocalDeleter) :
    KeepStep s.columns columns' ((LocalDeleter.delete row).runFrom (s, d))
      ((LocalDeleter.delete row).runFrom (s.withColumns columns', d)) := by
  have hdelete := deleteRow_withColumns h hplace row
  cases hrow : s.deleteRow row with
  | error e =>
    rw [hrow] at hdelete
    rw [LocalDeleter.runFrom_delete_error hrow, LocalDeleter.runFrom_delete_error hdelete]
    exact ⟨.same _, rfl, rfl⟩
  | ok s' =>
    rw [hrow] at hdelete
    rw [LocalDeleter.runFrom_delete_ok hrow, LocalDeleter.runFrom_delete_ok hdelete]
    exact ⟨.same _, rfl, rfl⟩

end

theorem release_withColumns (s : RowStore) (columns : List Column) (name : String) :
    (s.withColumns columns).release name
      = (s.release name).map fun s' => s'.withColumns columns := by
  have hsavepoints : (s.withColumns columns).savepoints = s.savepoints := rfl
  rw [release, release, hsavepoints]
  cases findSavepoint? name s.savepoints with
  | none => rfl
  | some found => rfl

theorem rollback_withColumns (s : RowStore) (columns : List Column) (name : String) :
    (s.withColumns columns).rollback name
      = (s.rollback name).map fun s' => s'.withColumns columns := by
  have hsavepoints : (s.withColumns columns).savepoints = s.savepoints := rfl
  rw [rollback, rollback, hsavepoints]
  cases findSavepoint? name s.savepoints with
  | none => rfl
  | some found => rfl

theorem keepStep_begin (s : RowStore) (columns' : List Column) (ctx : Context) (d : LocalDeleter) :
    KeepStep s.columns columns' ((LocalDeleter.begin ctx).runFrom (s, d))
      ((LocalDeleter.begin ctx).runFrom (s.withColumns columns', d)) := by
  obtain ⟨_ | name⟩ := d
  · exact ⟨.same _, rfl, rfl⟩
  · exact ⟨.same _, rfl, rfl⟩

theorem keepStep_finishWith {finish : RowStore → String → Except StoreError RowStore} {s : RowStore}
    (hfinish : ∀ name, finish (s.withColumns columns') name
      = (finish s name).map fun s' => s'.withColumns columns') (d : LocalDeleter) :
    KeepStep s.columns columns' ((LocalDeleter.finishWith finish).runFrom (s, d))
      ((LocalDeleter.finishWith finish).runFrom (s.withColumns columns', d)) := by
  rw [LocalDeleter.finishWith, Step.runFrom_ofFn, Step.runFrom_ofFn]
  obtain ⟨_ | name⟩ := d
  · exact ⟨.same _, rfl, rfl⟩
  · dsimp only
    rw [hfinish]
    cases finish s name with
    | error e => exact ⟨.same _, rfl, rfl⟩
    | ok s' => exact ⟨.same _, rfl, rfl⟩

section

variable {s : RowStore} (h : s.columns.map Column.anonymous = columns'.map Column.anonymous)
  (hplace : numberPlace s.columns = numberPlace columns')

include h hplace

theorem keepStep_run (c : StoreCall) (d : LocalDeleter) :
    KeepStep s.columns columns' (c.run (s, d)) (c.run (s.withColumns columns', d)) := by
  cases c with
  | insertAll rows => exact keepStep_insertAll h rows d
  | begin ctx => exact keepStep_begin s columns' ctx d
  | delete ctx row => exact keepStep_delete h hplace row d
  | discard ctx cause => exact keepStep_finishWith (rollback_withColumns s columns') d
  | complete ctx => exact keepStep_finishWith (release_withColumns s columns') d
  | close ctx => exact keepStep_finishWith (release_withColumns s columns') d

end

/-- Calls of any parties keep the two stores in step. -/
theorem runAll_withColumns {P : Type} [DecidableEq P] {s : RowStore}
    (h : s.columns.map Column.anonymous = columns'.map Column.anonymous)
    (hplace : numberPlace s.columns = numberPlace columns') (deleters : P → LocalDeleter)
    (calls : List (P × StoreCall)) :
    List.Forall₂ (SameButName s.columns columns')
        (runAll StoreCall.runShared calls (s, deleters)).1
        (runAll StoreCall.runShared calls (s.withColumns columns', deleters)).1
      ∧ (runAll StoreCall.runShared calls (s.withColumns columns', deleters)).2
          = ((runAll StoreCall.runShared calls (s, deleters)).2.1.withColumns columns',
              (runAll StoreCall.runShared calls (s, deleters)).2.2) := by
  induction calls generalizing s deleters with
  | nil => exact ⟨.nil, rfl⟩
  | cons call calls ih =>
    obtain ⟨p, c⟩ := call
    have hcall := keepStep_run h hplace c (deleters p)
    obtain ⟨-, hcolumns, -⟩ := (changes_run c s (deleters p)).frame
    have hnext : (StoreCall.runShared (p, c) (s.withColumns columns', deleters)).2
        = ((StoreCall.runShared (p, c) (s, deleters)).2.1.withColumns columns',
            (StoreCall.runShared (p, c) (s, deleters)).2.2) := by
      rw [StoreCall.runShared, StoreCall.runShared, hcall.store, hcall.deleters]
    have hcolumns' : (StoreCall.runShared (p, c) (s, deleters)).2.1.columns = s.columns := hcolumns
    rw [← hcolumns'] at h hplace
    obtain ⟨hresults, hlast⟩ := ih h hplace (StoreCall.runShared (p, c) (s, deleters)).2.2
    rw [← hnext] at hresults hlast
    rw [hcolumns'] at hresults
    exact ⟨.cons hcall.results hresults, hlast⟩

/-- A delete that is made takes off one row, as long as no column hides the row numbers. -/
theorem size_of_delete {s s' : RowStore} {row : Row} (hshown : NumbersShown s.columns)
    (hnumbered : Numbered s.stored) (h : s.deleteRow row = .ok s') : s'.size + 1 = s.size := by
  rw [deleteRow_eq hshown hnumbered] at h
  split_ifs at h with hwide hany
  obtain rfl := Except.ok.inj h
  obtain ⟨r, hr, hkey⟩ := List.any_eq_true.mp hany
  have hlength : (s.stored.eraseP fun r => hasKey s.columns row r.cells).length
      = s.stored.length - 1 := List.length_eraseP_of_mem hr hkey
  have hpos := List.length_pos_of_mem hr
  show (s.stored.eraseP _).length + 1 = s.stored.length
  omega

theorem deleteRow_of_runShared {P : Type} [DecidableEq P] {s : RowStore}
    {deleters : P → LocalDeleter} {p : P} {ctx : Context} {row : Row}
    (h : (StoreCall.runShared (p, .delete ctx row) (s, deleters)).1 = .ok ()) :
    s.deleteRow row = .ok (StoreCall.runShared (p, .delete ctx row) (s, deleters)).2.1 := by
  have hrun : (StoreCall.delete ctx row).run (s, deleters p)
      = (LocalDeleter.delete row).runFrom (s, deleters p) := rfl
  rw [StoreCall.runShared, hrun] at h ⊢
  cases hrow : s.deleteRow row with
  | error e =>
    rw [LocalDeleter.runFrom_delete_error hrow] at h
    cases h
  | ok s' => rw [LocalDeleter.runFrom_delete_ok hrow]

/-- Two layouts that agree in everything but the names of their columns, and have the column
`rowid` at one place if they have one: after any calls of any parties the two stores gave the same
results, but for the column that an empty cell was refused for, and have the same rows and the same
savepoints, and so have the deleters. If there is no column `rowid`, moreover, all partitions
together have each stored row once, and a delete that is made takes off one row. -/
theorem runShared_renamed {P : Type} [DecidableEq P] {table : String}
    {columns columns' : List Column} {partitions : Nat} {s s' : RowStore}
    (hcreate : create table columns partitions = .ok s)
    (hcreate' : create table columns' partitions = .ok s')
    (hnames : columns.map Column.anonymous = columns'.map Column.anonymous)
    (hplace : numberPlace columns = numberPlace columns') (calls : List (P × StoreCall)) :
    let run := runAll StoreCall.runShared calls (s, fun _ => {})
    let run' := runAll StoreCall.runShared calls (s', fun _ => {})
    List.Forall₂ (SameButName columns columns') run.1 run'.1
      ∧ run'.2.1 = run.2.1.withColumns columns' ∧ run'.2.2 = run.2.2
      ∧ run'.2.1.size = run.2.1.size ∧ run'.2.1.rows = run.2.1.rows
      ∧ run'.2.1.partitions = run.2.1.partitions
      ∧ (∀ i, run'.2.1.partitionRows i = run.2.1.partitionRows i)
      ∧ (numberPlace columns = none →
          run.2.1.rows.Perm (run.2.1.stored.map run.2.1.valuesOf)
            ∧ ∀ p ctx row, (StoreCall.runShared (p, .delete ctx row) run.2).1 = .ok () →
                (StoreCall.runShared (p, .delete ctx row) run.2).2.1.size + 1 = run.2.1.size) := by
  intro run run'
  have htraced : Traced _ run.2.1 := (Traced.of_create hcreate).runShared _ calls
  obtain ⟨-, hcolumns, -⟩ := frame_runShared s (fun _ => {}) calls
  obtain rfl : s.columns = columns := by rw [(create_eq_ok.mp hcreate).2]
  obtain rfl : s' = s.withColumns columns' := by
    rw [(create_eq_ok.mp hcreate).2, (create_eq_ok.mp hcreate').2, withColumns]
  obtain ⟨hresults, hlast⟩ := runAll_withColumns hnames hplace (fun _ => {}) calls
  have hstore : run'.2.1 = run.2.1.withColumns columns' := congrArg Prod.fst hlast
  have hdeleters : run'.2.2 = run.2.2 := by
    have hsecond := congrArg Prod.snd hlast
    exact hsecond
  have hcolumns : run.2.1.columns = s.columns := hcolumns
  have hrun : run.2.1.columns.map Column.anonymous = columns'.map Column.anonymous := by
    rw [hcolumns, hnames]
  have hrunPlace : numberPlace run.2.1.columns = numberPlace columns' := by
    rw [hcolumns, hplace]
  refine ⟨hresults, hstore, hdeleters, ?_, ?_, ?_, ?_, fun hnone => ?_⟩
  · rw [hstore]
    rfl
  · rw [hstore, rows_withColumns hrun hrunPlace]
  · rw [hstore]
    rfl
  · intro i
    rw [hstore, partitionRows_withColumns hrun hrunPlace]
  · have hshown : NumbersShown run.2.1.columns := by
      rw [hcolumns]
      exact numberColumn?_eq_none.mp hnone
    exact ⟨perm_rows hshown htraced.stored.numbered, fun p ctx row hok =>
      size_of_delete hshown htraced.stored.numbered (deleteRow_of_runShared hok)⟩

/-- Columns of text: a primary key and another. -/
def twoColumns (key other : String) : List Column :=
  [{ name := key, type := .text, nullable := false, primaryKey := true, source := "",
     comment := none },
   { name := other, type := .text, nullable := true, primaryKey := false, source := "",
     comment := none }]

theorem create_twoColumns (key other : String)
    (h : fault? "t" (twoColumns key other) = none) (partitions : Nat) :
    ∃ s, create "t" (twoColumns key other) partitions = .ok s :=
  ⟨_, create_eq_ok.mpr ⟨h, rfl⟩⟩

/-- An empty key is refused by the column's own name. -/
theorem runShared_renamed_key :
    let calls : List (Unit × StoreCall) :=
      [((), .insertAll [[.text "1", .null]]), ((), .insertAll [[.null, .null]])]
    ∃ s s', create "t" (twoColumns "id" "name") 2 = .ok s
      ∧ create "t" (twoColumns "key" "label") 2 = .ok s'
      ∧ (runAll StoreCall.runShared calls (s, fun _ => {})).1
          = [.ok (), .error (.emptyCell "t" "id")]
      ∧ (runAll StoreCall.runShared calls (s', fun _ => {})).1
          = [.ok (), .error (.emptyCell "t" "key")]
      ∧ (runAll StoreCall.runShared calls (s', fun _ => {})).2.1.rows = [[.text "1", .null]] := by
  intro calls
  obtain ⟨s, hs⟩ := create_twoColumns "id" "name" (by decide +kernel) 2
  obtain ⟨s', hs'⟩ := create_twoColumns "key" "label" (by decide +kernel) 2
  obtain ⟨-, -, -, -, hrows, -⟩ :=
    runShared_renamed hs hs' (by decide +kernel) (by decide +kernel) calls
  obtain ⟨-, rfl⟩ := create_eq_ok.mp hs
  obtain ⟨-, rfl⟩ := create_eq_ok.mp hs'
  refine ⟨_, _, hs, hs', by decide +kernel, by decide +kernel, ?_⟩
  rw [hrows]
  decide +kernel

/-- A row without a number is in no partition. -/
theorem exists_numbered_of_mem_rows {s : RowStore} {row : Row} (h : row ∈ s.rows) :
    ∃ r ∈ s.stored, s.numberOf r ≠ .null ∧ row = s.valuesOf r := by
  obtain ⟨i, -, hrow⟩ := List.mem_flatMap.mp h
  obtain ⟨r, hr, rfl⟩ := List.mem_map.mp hrow
  obtain ⟨hordered, hplace⟩ := List.mem_filter.mp hr
  refine ⟨r, ?_, fun hnull => ?_, rfl⟩
  · unfold ordered at hordered
    split at hordered
    · exact hordered
    · exact List.mem_mergeSort.mp hordered
  · rw [hnull] at hplace
    cases hplace

/-- Three rows, of which two have one `rowid` and the third has none. Where that is the name of the
column, the third row is in no partition, and deleting the first takes off the second too. -/
theorem renamed_rowid :
    let rows : List Row := [[.text "1", .text "1"], [.text "2", .text "1"], [.text "3", .null]]
    let calls : List (Unit × StoreCall) :=
      [((), .insertAll rows), ((), .delete ⟨"q"⟩ [.text "1"])]
    ∃ s s', create "t" (twoColumns "id" "name") 2 = .ok s
      ∧ create "t" (twoColumns "id" "rowid") 2 = .ok s'
      ∧ (twoColumns "id" "name").map Column.anonymous
          = (twoColumns "id" "rowid").map Column.anonymous
      ∧ [.text "3", .null] ∈ (runAll StoreCall.runShared (calls.take 1) (s, fun _ => {})).2.1.rows
      ∧ [.text "3", .null] ∉ (runAll StoreCall.runShared (calls.take 1) (s', fun _ => {})).2.1.rows
      ∧ (runAll StoreCall.runShared calls (s, fun _ => {})).1 = [.ok (), .ok ()]
      ∧ (runAll StoreCall.runShared calls (s', fun _ => {})).1 = [.ok (), .ok ()]
      ∧ (runAll StoreCall.runShared calls (s, fun _ => {})).2.1.size = 2
      ∧ (runAll StoreCall.runShared calls (s', fun _ => {})).2.1.size = 1 := by
  intro rows calls
  obtain ⟨s, hs⟩ := create_twoColumns "id" "name" (by decide +kernel) 2
  obtain ⟨s', hs'⟩ := create_twoColumns "id" "rowid" (by decide +kernel) 2
  obtain ⟨-, rfl⟩ := create_eq_ok.mp hs
  obtain ⟨-, rfl⟩ := create_eq_ok.mp hs'
  refine ⟨_, _, hs, hs', by decide +kernel, by decide +kernel, fun hmem => ?_, by decide +kernel,
    by decide +kernel, by decide +kernel, by decide +kernel⟩
  obtain ⟨r, hr, hnumber, hrow⟩ := exists_numbered_of_mem_rows hmem
  -- the rows that have a number are the other two
  revert r
  decide +kernel

end RowStore

end ShopTables
