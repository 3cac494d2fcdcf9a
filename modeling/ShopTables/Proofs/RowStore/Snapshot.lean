import ShopTables.Proofs.RowStore.Deleter
import ShopTables.Proofs.RowStore.Keys
import ShopTables.Proofs.RowStore.Layout

/-!
# A row store with one deleter — a list with one snapshot

```
    RowStore × LocalDeleter  --StoreCall.run-->  RowStore × LocalDeleter
             |                                            |
         Represents                                   Represents
             |                                            |
         ListStore           --ListStore.step-->      ListStore
```

Seen from outside, a row store on which one deleter works is a list of rows in insertion order and
perhaps a snapshot of it. Each call keeps the two in step (`run_agree`), so every run of calls
does (`runAll_agree`). The one exception is a key of more than `maxKeyColumns` columns: then
every delete is refused (`ListStore.stepWide`).
-/

namespace ShopTables

/-- A call to a row store or to the deleter that works on it. -/
inductive StoreCall where
  | insertAll (rows : List Row)
  | begin (ctx : Context)
  | delete (ctx : Context) (row : Row)
  | discard (ctx : Context) (cause : StoreError)
  | complete (ctx : Context)
  | close (ctx : Context)

/-- Makes a call. -/
def StoreCall.run : StoreCall → RowStore × LocalDeleter →
    Except StoreError Unit × RowStore × LocalDeleter
  | .insertAll rows, (s, d) =>
    match s.insertAll rows with
    | .ok s' => (.ok (), s', d)
    | .error e => (.error e, s, d)
  | .begin ctx, st => (LocalDeleter.calls ctx).begin.runFrom st
  | .delete ctx row, st => ((LocalDeleter.calls ctx).delete row).runFrom st
  | .discard ctx cause, st => ((LocalDeleter.calls ctx).discard cause).runFrom st
  | .complete ctx, st => (LocalDeleter.calls ctx).complete.runFrom st
  | .close ctx, st => (LocalDeleter.calls ctx).close.runFrom st

/-- Makes calls one after the other, and keeps what each of them gave. -/
def runAll {κ α σ : Type} (step : κ → σ → α × σ) : List κ → σ → List α × σ
  | [], s => ([], s)
  | c :: cs, s => ((step c s).1 :: (runAll step cs (step c s).2).1, (runAll step cs (step c s).2).2)

theorem runAll_concat {κ α σ : Type} (step : κ → σ → α × σ) (cs : List κ) (c : κ) (s : σ) :
    runAll step (cs ++ [c]) s
      = ((runAll step cs s).1 ++ [(step c (runAll step cs s).2).1],
          (step c (runAll step cs s).2).2) := by
  induction cs generalizing s with
  | nil => rfl
  | cons c' cs ih => rw [List.cons_append, runAll, ih, runAll, List.cons_append]

theorem length_runAll {κ α σ : Type} (step : κ → σ → α × σ) (cs : List κ) (s : σ) :
    (runAll step cs s).1.length = cs.length := by
  induction cs generalizing s with
  | nil => rfl
  | cons c cs ih => rw [runAll, List.length_cons, List.length_cons, ih]

/-- The cells of rows in insertion order, and perhaps what they were when a snapshot was taken. -/
structure ListStore where
  rows : List (List Cell) := []
  snapshot : Option (List (List Cell)) := none

namespace ListStore

open RowStore (admitted hasKey)

/-- What a call does to a list with a snapshot. -/
def step (table : String) (columns : List Column) :
    StoreCall → ListStore → Except StoreError Unit × ListStore
  | .insertAll rows, l =>
    match l.snapshot, rows.mapM (admitted table columns) with
    | some _, _ => (.error .statementOpen, l)
    | none, .ok added => (.ok (), { l with rows := l.rows ++ added })
    | none, .error e => (.error e, l)
  | .begin _, l =>
    match l.snapshot with
    | some _ => (.ok (), l)
    | none => (.ok (), { l with snapshot := some l.rows })
  | .delete _ row, l =>
    if l.rows.any (hasKey columns row) then
      (.ok (), { l with rows := l.rows.eraseP (hasKey columns row) })
    else (.error (.rowNotFound table), l)
  | .discard _ _, l => (.ok (), { rows := l.snapshot.getD l.rows, snapshot := none })
  | .complete _, l => (.ok (), { l with snapshot := none })
  | .close _, l => (.ok (), { l with snapshot := none })

/-- The same, except that every delete is refused. -/
def stepWide (table : String) (columns : List Column) :
    StoreCall → ListStore → Except StoreError Unit × ListStore
  | .delete _ _, l => (.error .keyTooWide, l)
  | c, l => step table columns c l

end ListStore

namespace RowStore

/-! ### What a store and its deleter stand for -/

/-- The cells of rows, without their numbers. -/
def contents (rows : List NumberedRow) : List (List Cell) := rows.map (·.cells)

/-- A store of a layout, with its rows numbered in insertion order. -/
structure Fits (table : String) (columns : List Column) (s : RowStore) : Prop where
  name : s.name = table
  columns : s.columns = columns
  numbered : Numbered s.stored

/-- A store and its deleter stand for a list with a snapshot: the deleter remembers the one
savepoint that is open, and that savepoint keeps the rows of the snapshot. -/
inductive Represents (table : String) (columns : List Column) :
    RowStore × LocalDeleter → ListStore → Prop where
  | idle {s : RowStore} (fits : Fits table columns s) (closed : s.savepoints = []) :
      Represents table columns (s, ⟨none⟩) ⟨contents s.stored, none⟩
  | within {s : RowStore} {name : String} {kept : List NumberedRow} (fits : Fits table columns s)
      (numbered : Numbered kept) (opened : s.savepoints = [⟨name, kept⟩]) :
      Represents table columns (s, ⟨some name⟩) ⟨contents s.stored, some (contents kept)⟩

/-- A call and its counterpart give the same and leave a store that stands for the list. -/
def Agree (table : String) (columns : List Column)
    (concrete : Except StoreError Unit × RowStore × LocalDeleter)
    (abstract : Except StoreError Unit × ListStore) : Prop :=
  concrete.1 = abstract.1 ∧ Represents table columns concrete.2 abstract.2

variable {table : String} {columns : List Column} {st : RowStore × LocalDeleter} {l : ListStore}

theorem Fits.withRows {s : RowStore} (h : Fits table columns s) {rows : List NumberedRow}
    (hn : Numbered rows) (savepoints : List Savepoint) :
    Fits table columns { s with stored := rows, savepoints } :=
  ⟨h.name, h.columns, hn⟩

namespace Represents

variable {s : RowStore} {d : LocalDeleter}

theorem fits (h : Represents table columns (s, d) l) : Fits table columns s := by
  cases h with
  | idle fits _ => exact fits
  | within fits _ _ => exact fits

theorem rows_eq (h : Represents table columns (s, d) l) : l.rows = contents s.stored := by
  cases h with
  | idle _ _ => rfl
  | within _ _ _ => rfl

theorem isSome_savepoint (h : Represents table columns (s, d) l) :
    d.savepoint.isSome = l.snapshot.isSome := by
  cases h with
  | idle _ _ => rfl
  | within _ _ _ => rfl

/-- The rows may change under a snapshot. -/
theorem withRows (h : Represents table columns (s, d) l) {rows : List NumberedRow}
    (hn : Numbered rows) :
    Represents table columns ({ s with stored := rows }, d) { l with rows := contents rows } := by
  cases h with
  | idle fits closed => exact .idle (fits.withRows hn _) closed
  | within fits numbered opened => exact .within (fits.withRows hn _) numbered opened

end Represents

/-! ### Each call -/

theorem insertAll_agree (h : Represents table columns st l) (rows : List Row) :
    Agree table columns ((StoreCall.insertAll rows).run st)
      (ListStore.step table columns (.insertAll rows) l) := by
  cases h with
  | @within s name kept fits numbered opened =>
    have hopen : s.savepoints ≠ [] := by simp [opened]
    rw [StoreCall.run, insertAll_open s rows hopen]
    exact ⟨rfl, .within fits numbered opened⟩
  | @idle s fits closed =>
    -- both sides ask the layout about the same rows, and then append the same cells
    have hinsert := insertAll_eq s rows closed
    rw [fits.name, fits.columns] at hinsert
    rw [StoreCall.run, hinsert, ListStore.step]
    cases rows.mapM (admitted table columns) with
    | error e => exact ⟨rfl, .idle fits closed⟩
    | ok added =>
      obtain ⟨new, hfold, hcells, hnew⟩ := foldl_push s added
      have hcontents : contents s.stored ++ added = contents (s.stored ++ new) := by
        rw [contents, contents, List.map_append, hcells]
      show Agree table columns (.ok (), added.foldl push s, ⟨none⟩)
        (.ok (), ⟨contents s.stored ++ added, none⟩)
      rw [hfold, hcontents]
      exact ⟨rfl, .idle (fits.withRows (hnew fits.numbered) _) closed⟩

theorem begin_agree (h : Represents table columns st l) (ctx : Context) :
    Agree table columns ((StoreCall.begin ctx).run st)
      (ListStore.step table columns (.begin ctx) l) := by
  cases h with
  | within fits numbered opened => exact ⟨rfl, .within fits numbered opened⟩
  | @idle s fits closed =>
    refine ⟨rfl, .within (fits.withRows fits.numbered _) fits.numbered ?_⟩
    show ⟨_, s.stored⟩ :: s.savepoints = _
    rw [closed]

theorem discard_agree (h : Represents table columns st l) (ctx : Context) (cause : StoreError) :
    Agree table columns ((StoreCall.discard ctx cause).run st)
      (ListStore.step table columns (.discard ctx cause) l) := by
  cases h with
  | idle fits closed => exact ⟨rfl, .idle fits closed⟩
  | @within s name kept fits numbered opened =>
    have hrun : (StoreCall.discard ctx cause).run (s, ⟨some name⟩)
        = (.ok (), { s with stored := kept, savepoints := [] }, ⟨none⟩) :=
      LocalDeleter.runFrom_discard_within opened
    rw [hrun]
    exact ⟨rfl, .idle (fits.withRows numbered _) rfl⟩

/-- Completing and closing both keep the rows and forget the snapshot. -/
theorem release_agree (h : Represents table columns st l) :
    Agree table columns (LocalDeleter.release.runFrom st)
      (.ok (), { l with snapshot := none }) := by
  cases h with
  | idle fits closed => exact ⟨rfl, .idle fits closed⟩
  | @within s name kept fits numbered opened =>
    rw [LocalDeleter.runFrom_release_within opened]
    exact ⟨rfl, .idle (fits.withRows fits.numbered _) rfl⟩

section

variable (hshown : NumbersShown columns)

include hshown

/-- A delete takes off the first row that has the key. -/
theorem delete_agree (h : Represents table columns st l)
    (hnarrow : (keyColumns columns).length ≤ maxKeyColumns) (ctx : Context) (row : Row) :
    Agree table columns ((StoreCall.delete ctx row).run st)
      (ListStore.step table columns (.delete ctx row) l) := by
  obtain ⟨s, d⟩ := st
  obtain ⟨rfl, rfl, hnumbered⟩ := h.fits
  have hdelete := deleteRow_eq hshown hnumbered row
  rw [if_neg (Nat.not_lt.mpr hnarrow)] at hdelete
  have hany : (s.stored.any fun r => hasKey s.columns row r.cells)
      = l.rows.any (hasKey s.columns row) := by
    rw [h.rows_eq, contents, List.any_map]
    rfl
  have herase : contents (s.stored.eraseP fun r => hasKey s.columns row r.cells)
      = l.rows.eraseP (hasKey s.columns row) := by
    rw [h.rows_eq, contents, contents, List.eraseP_map]
    rfl
  rw [hany] at hdelete
  rw [ListStore.step]
  split_ifs at hdelete ⊢ with hfound
  · rw [StoreCall.run, LocalDeleter.calls]
    dsimp only
    rw [LocalDeleter.runFrom_delete_ok hdelete, ← herase]
    exact ⟨rfl, h.withRows (hnumbered.sublist List.eraseP_sublist)⟩
  · rw [StoreCall.run, LocalDeleter.calls]
    dsimp only
    rw [LocalDeleter.runFrom_delete_error hdelete]
    exact ⟨rfl, h⟩

/-- A delete by a key that is too wide is refused. -/
theorem delete_agree_wide (h : Represents table columns st l)
    (hwide : maxKeyColumns < (keyColumns columns).length) (ctx : Context) (row : Row) :
    Agree table columns ((StoreCall.delete ctx row).run st)
      (ListStore.stepWide table columns (.delete ctx row) l) := by
  obtain ⟨s, d⟩ := st
  obtain ⟨rfl, rfl, hnumbered⟩ := h.fits
  have hdelete := deleteRow_eq hshown hnumbered row
  rw [if_pos hwide] at hdelete
  rw [StoreCall.run, LocalDeleter.calls]
  dsimp only
  rw [LocalDeleter.runFrom_delete_error hdelete]
  exact ⟨rfl, h⟩

/-! ### Runs -/

/-- The machine that a store of a layout behaves as: a list with a snapshot, where deletes are
refused if more than `maxKeyColumns` columns tell rows apart. -/
def machine (table : String) (columns : List Column) :
    StoreCall → ListStore → Except StoreError Unit × ListStore :=
  if (keyColumns columns).length ≤ maxKeyColumns then ListStore.step table columns
  else ListStore.stepWide table columns

omit hshown in
theorem machine_eq_step {c : StoreCall} (hc : ∀ ctx row, c ≠ .delete ctx row) :
    machine table columns c = ListStore.step table columns c := by
  unfold machine
  split_ifs
  · rfl
  · cases c with
    | delete ctx row => exact absurd rfl (hc ctx row)
    | _ => rfl

theorem run_agree (h : Represents table columns st l) (c : StoreCall) :
    Agree table columns (c.run st) (machine table columns c l) := by
  -- the width of the key matters to deletes only
  by_cases hdelete : ∃ ctx row, c = .delete ctx row
  · obtain ⟨ctx, row, rfl⟩ := hdelete
    unfold machine
    split_ifs with hkey
    · exact delete_agree hshown h hkey ctx row
    · exact delete_agree_wide hshown h (Nat.not_le.mp hkey) ctx row
  · rw [machine_eq_step fun ctx row hc => hdelete ⟨ctx, row, hc⟩]
    cases c with
    | insertAll rows => exact insertAll_agree h rows
    | begin ctx => exact begin_agree h ctx
    | delete ctx row => exact absurd ⟨ctx, row, rfl⟩ hdelete
    | discard ctx cause => exact discard_agree h ctx cause
    | complete ctx => exact release_agree h
    | close ctx => exact release_agree h

theorem runAll_agree (h : Represents table columns st l) (calls : List StoreCall) :
    (runAll StoreCall.run calls st).1 = (runAll (machine table columns) calls l).1
      ∧ Represents table columns (runAll StoreCall.run calls st).2
          (runAll (machine table columns) calls l).2 := by
  -- `Represents` is the invariant; one call keeps it and gives what the list gives
  induction calls generalizing st l with
  | nil => exact ⟨rfl, h⟩
  | cons c calls ih =>
    obtain ⟨hresult, hnext⟩ := run_agree hshown h c
    obtain ⟨hresults, hlast⟩ := ih hnext
    exact ⟨congrArg₂ List.cons hresult hresults, hlast⟩

end

theorem represents_of_create {partitions : Nat} {s : RowStore}
    (h : create table columns partitions = .ok s) : Represents table columns (s, {}) {} := by
  obtain ⟨-, rfl⟩ := create_eq_ok.mp h
  exact .idle ⟨rfl, rfl, .nil⟩ rfl

/-- Cells read back through their columns. -/
def readBack (columns : List Column) (cells : List Cell) : Row :=
  (columns.zip cells).map fun (c, cell) => cell.toValue c

/-- What can be seen of a store that stands for a list: how many rows there are, and in each
partition some of them, in insertion order, so that every row is in one. -/
theorem Represents.observed {s : RowStore} {d : LocalDeleter}
    (h : Represents table columns (s, d) l) (hshown : NumbersShown columns) :
    s.size = l.rows.length ∧ s.rows.Perm (l.rows.map (readBack columns))
      ∧ ∀ i, (s.partitionRows i).Sublist (l.rows.map (readBack columns)) := by
  obtain ⟨rfl, rfl, hnumbered⟩ := h.fits
  have hvalues : s.stored.map s.valuesOf = l.rows.map (readBack s.columns) := by
    rw [h.rows_eq, contents, List.map_map]
    rfl
  rw [← hvalues]
  refine ⟨?_, perm_rows hshown hnumbered, partitionRows_sublist hshown hnumbered⟩
  rw [h.rows_eq, contents, List.length_map, size]

/-- Columns of text that may be empty, called `a`, `aa`, `aaa`, …, none of them a key. -/
def textColumns (n : Nat) : List Column :=
  (List.range n).map fun i =>
    { name := String.ofList (List.replicate (i + 1) 'a'), type := .text, nullable := true,
      primaryKey := false, source := "", comment := none }

theorem mem_textColumns {n : Nat} {c : Column} (hc : c ∈ textColumns n) :
    ∃ i, c = { name := String.ofList (List.replicate (i + 1) 'a'), type := .text, nullable := true,
               primaryKey := false, source := "", comment := none } := by
  obtain ⟨i, -, rfl⟩ := List.mem_map.mp hc
  exact ⟨i, rfl⟩

theorem lowerAscii_replicate (n : Nat) :
    Text.lowerAscii (String.ofList (List.replicate n 'a'))
      = String.ofList (List.replicate n 'a') := by
  rw [Text.lowerAscii, String.toList_ofList, List.map_replicate]
  rfl

theorem numbersShown_textColumns (n : Nat) : NumbersShown (textColumns n) := by
  intro c hc heq
  obtain ⟨i, rfl⟩ := mem_textColumns hc
  rw [lowerAscii_replicate] at heq
  have hall : ∀ x ∈ "rowid".toList, x = 'a' := by
    rw [← heq, String.toList_ofList]
    exact fun x hx => List.eq_of_mem_replicate hx
  exact absurd (hall 'r' (by decide)) (by decide)

theorem create_textColumns {n : Nat} (hn : n ≤ maxColumns) (partitions : Nat) :
    ∃ s, create "t" (textColumns n) partitions = .ok s := by
  refine ⟨_, create_eq_ok.mpr ⟨fault?_eq_none.mpr ⟨by decide, by decide, ?_, ?_, ?_⟩, rfl⟩⟩
  · intro c hc hnul
    obtain ⟨i, rfl⟩ := mem_textColumns hc
    rw [String.toList_ofList] at hnul
    exact absurd (List.eq_of_mem_replicate hnul) (by decide)
  · rw [textColumns, List.length_map, List.length_range]
    exact hn
  · rw [smallNames, textColumns, List.map_map]
    refine List.Nodup.map (fun i j hij => ?_) List.nodup_range
    simp only [Function.comp_apply, lowerAscii_replicate] at hij
    have hlength := congrArg List.length (String.ofList_injective hij)
    rw [List.length_replicate, List.length_replicate] at hlength
    exact Nat.succ.inj hlength

theorem length_keyColumns_textColumns (n : Nat) : (keyColumns (textColumns n)).length = n := by
  have hnone : ((textColumns n).zipIdx.filter (·.1.primaryKey)) = [] := by
    rw [List.filter_eq_nil_iff]
    intro p hp
    obtain ⟨i, hc⟩ := mem_textColumns (List.mem_of_getElem? (List.mem_zipIdx_iff_getElem?.mp hp))
    rw [hc]
    exact Bool.false_ne_true
  rw [keyColumns, hnone, List.isEmpty_nil, if_pos rfl, List.length_zipIdx, textColumns,
    List.length_map, List.length_range]

theorem admitted_nulls {n : Nat} (hn : 0 < n) :
    admitted "t" (textColumns n) (Row.nulls n) = .ok (List.replicate n .null) := by
  have hlength : (textColumns n).length = n := by
    rw [textColumns, List.length_map, List.length_range]
  have hkeep : keep (textColumns n) (Row.nulls n) = List.replicate n .null := by
    rw [List.eq_replicate_iff]
    refine ⟨by simp [keep, hlength], fun cell hcell => ?_⟩
    obtain ⟨⟨c, v⟩, hp, rfl⟩ := List.mem_map.mp hcell
    obtain ⟨hc, hv⟩ := List.of_mem_zip hp
    obtain ⟨i, rfl⟩ := mem_textColumns hc
    rw [List.eq_of_mem_replicate hv]
    rfl
  have hnone : ((textColumns n).zip (List.replicate n Cell.null)).find?
      (fun (c, cell) => !c.nullable && cell.isNull) = none := by
    rw [List.find?_eq_none]
    rintro ⟨c, cell⟩ hp
    obtain ⟨i, rfl⟩ := mem_textColumns (List.of_mem_zip hp).1
    exact Bool.false_ne_true
  rw [admitted, hkeep, hnone, if_neg (by simp [List.isEmpty_iff, ← List.length_eq_zero_iff, hlength,
    Nat.ne_of_gt hn]), if_neg (by simp [hlength])]

theorem hasKey_nulls (n : Nat) :
    hasKey (textColumns n) (Row.nulls n) (List.replicate n .null) = true := by
  rw [hasKey, List.all_eq_true]
  rintro ⟨c, i⟩ hp
  obtain ⟨j, rfl⟩ := mem_textColumns
    (List.mem_of_getElem? (List.mem_zipIdx_iff_getElem?.mp ((keyColumns_sublist _).subset hp)))
  have hcell : (List.replicate n Cell.null).getD i .null = .null := by
    rw [List.getD, List.getElem?_replicate]
    split_ifs <;> rfl
  have hvalue : (Row.nulls n).getD i .null = .null := by
    rw [Row.nulls, List.getD, List.getElem?_replicate]
    split_ifs <;> rfl
  dsimp only
  rw [hcell, hvalue]
  rfl

/-- After any calls whatever, a row store and its deleter have given the same and show the same as
the list with a snapshot. -/
theorem runAll_eq_list {partitions : Nat} {s : RowStore}
    (hcreate : create table columns partitions = .ok s) (hshown : NumbersShown columns)
    (calls : List StoreCall) :
    let ⟨results, s', d'⟩ := runAll StoreCall.run calls (s, {})
    let ⟨results', l'⟩ := runAll (machine table columns) calls {}
    results = results' ∧ s'.stored.map (·.cells) = l'.rows
      ∧ s'.size = l'.rows.length ∧ s'.rows.Perm (l'.rows.map (readBack columns))
      ∧ (∀ i, (s'.partitionRows i).Sublist (l'.rows.map (readBack columns)))
      ∧ d'.savepoint.isSome = l'.snapshot.isSome := by
  obtain ⟨hresults, hlast⟩ := runAll_agree hshown (represents_of_create hcreate) calls
  obtain ⟨hsize, hrows, hparts⟩ := hlast.observed hshown
  exact ⟨hresults, hlast.rows_eq.symm, hsize, hrows, hparts, hlast.isSome_savepoint⟩

/-- Two rows, one of them deleted and brought back. -/
theorem runAll_eq_list_discarded :
    let calls : List StoreCall := [.insertAll [[.text "x"], [.text "y"]], .begin ⟨"q"⟩,
      .delete ⟨"q"⟩ [.text "x"], .discard ⟨"q"⟩ .keyTooWide]
    ∃ s, create "t" (textColumns 1) 2 = .ok s ∧ NumbersShown (textColumns 1)
      ∧ (runAll StoreCall.run calls (s, {})).1 = [.ok (), .ok (), .ok (), .ok ()]
      ∧ (runAll StoreCall.run calls (s, {})).2.1.size = 2 := by
  intro calls
  obtain ⟨s, hs⟩ := create_textColumns (n := 1) (by decide) 2
  have hshown := numbersShown_textColumns 1
  obtain ⟨hresults, -, hsize, -⟩ := runAll_eq_list hs hshown calls
  exact ⟨s, hs, hshown, hresults, hsize⟩

/-- A table of 499 columns without a primary key takes a row, and then refuses to delete it,
although the row is there. -/
theorem stored_row_not_deletable :
    ∃ s, create "t" (textColumns 499) 1 = .ok s ∧ NumbersShown (textColumns 499)
      ∧ (runAll StoreCall.run
            [.insertAll [Row.nulls 499], .delete ⟨"q"⟩ (Row.nulls 499)] (s, {})).1
          = [.ok (), .error .keyTooWide]
      ∧ (runAll (ListStore.step "t" (textColumns 499))
            [.insertAll [Row.nulls 499], .delete ⟨"q"⟩ (Row.nulls 499)] {}).1
          = [.ok (), .ok ()] := by
  obtain ⟨s, hs⟩ := create_textColumns (n := 499) (by decide) 1
  have hinsert : [Row.nulls 499].mapM (admitted "t" (textColumns 499))
      = .ok [List.replicate 499 .null] := by
    rw [List.mapM_cons, admitted_nulls (by decide)]
    rfl
  refine ⟨s, hs, numbersShown_textColumns 499, ?_, ?_⟩
  · have hmachine : machine "t" (textColumns 499) = ListStore.stepWide "t" (textColumns 499) := by
      rw [machine, length_keyColumns_textColumns, if_neg (by decide)]
    rw [(runAll_agree (numbersShown_textColumns 499) (represents_of_create hs) _).1, hmachine]
    simp only [runAll, ListStore.stepWide, ListStore.step, hinsert]
  · simp only [runAll, ListStore.step, hinsert, List.nil_append, List.any_cons,
      hasKey_nulls, Bool.true_or, if_true]

end RowStore

end ShopTables
