import Mathlib.Data.List.Perm.Basic
import ShopTables.RowStore.Basic

/-!
# Row numbers — insertion order and partitions

As long as no column is called `rowid`, the numbers of the stored rows ascend in insertion order
(`Numbered`), and they alone decide about partitions. Adding rows appends them
(`insertAll_eq`), a partition has the rows whose numbers leave its remainder, in insertion order
(`partitionRows_eq`), and all partitions together have every row once (`perm_rows`).
-/

namespace ShopTables.RowStore

/-- No column hides the row numbers. -/
def NumbersShown (columns : List Column) : Prop :=
  ∀ c ∈ columns, Text.lowerAscii c.name ≠ "rowid"

/-- The numbers ascend, from one at least. -/
structure Numbered (rows : List NumberedRow) : Prop where
  ascending : rows.Pairwise fun a b => a.number < b.number
  positive : ∀ r ∈ rows, 1 ≤ r.number

theorem numberColumn?_eq_none {s : RowStore} :
    s.numberColumn? = none ↔ NumbersShown s.columns := by
  rw [numberColumn?, List.findIdx?_eq_none_iff]
  simp [NumbersShown]

theorem numberOf_eq {s : RowStore} (h : NumbersShown s.columns) (r : NumberedRow) :
    s.numberOf r = .integer r.number := by
  rw [numberOf, numberColumn?_eq_none.mpr h]

theorem ordered_eq {s : RowStore} (h : NumbersShown s.columns) : s.ordered = s.stored := by
  rw [ordered, numberColumn?_eq_none.mpr h]

/-! ### Numbered rows -/

namespace Numbered

variable {rows rows' : List NumberedRow}

theorem nil : Numbered [] := ⟨List.Pairwise.nil, by simp⟩

theorem sublist (h : Numbered rows) (hsub : rows'.Sublist rows) : Numbered rows' :=
  ⟨h.ascending.sublist hsub, fun r hr => h.positive r (hsub.subset hr)⟩

/-- Only the last number counts for the next one. -/
theorem lt_nextNumber {s : RowStore} (h : Numbered s.stored) :
    ∀ r ∈ s.stored, r.number < s.nextNumber := by
  intro r hr
  unfold nextNumber
  split
  · next hnone =>
    rw [List.getLast?_eq_none_iff] at hnone
    rw [hnone] at hr
    cases hr
  · next last hlast =>
    -- the numbers ascend, so the last one is the greatest
    obtain ⟨front, hfront⟩ := List.getLast?_eq_some_iff.mp hlast
    rw [hfront] at hr
    rcases List.mem_append.mp hr with hr | hr
    · have hlt := (List.pairwise_append.mp (hfront ▸ h.ascending)).2.2 r hr last (by simp)
      omega
    · rw [List.mem_singleton.mp hr]
      exact Nat.lt_succ_self _

theorem append {s : RowStore} (h : Numbered s.stored) (cells : List Cell) :
    Numbered (s.stored ++ [⟨s.nextNumber, cells⟩]) := by
  have hnext : 1 ≤ s.nextNumber := by
    unfold nextNumber
    split
    · exact Nat.le_refl 1
    · exact Nat.le_add_left 1 _
  constructor
  · refine List.pairwise_append.mpr ⟨h.ascending, List.pairwise_singleton _ _, ?_⟩
    intro r hr last hlast
    rw [List.mem_singleton.mp hlast]
    exact h.lt_nextNumber r hr
  · intro r hr
    rcases List.mem_append.mp hr with hr | hr
    · exact h.positive r hr
    · rw [List.mem_singleton.mp hr]
      exact hnext

end Numbered

/-! ### Adding rows -/

/-- The cells of a row as the columns keep them. -/
def keep (columns : List Column) (row : Row) : List Cell :=
  (columns.zip row).map fun (c, v) => c.storageType.coerce (Cell.ofValue v)

/-- The cells that are kept of a row, unless the layout does not admit it: it must have a cell for
each column, and none may be empty where the column must not be. -/
def admitted (table : String) (columns : List Column) (row : Row) : Except StoreError (List Cell) :=
  if columns.isEmpty then .ok []
  else if row.length ≠ columns.length then
    .error (.wrongWidth (min row.length (columns.length + 1)) columns.length)
  else
    match (columns.zip (keep columns row)).find? fun (c, cell) => !c.nullable && cell.isNull with
    | some (c, _) => .error (.emptyCell table c.name)
    | none => .ok (keep columns row)

/-- A store with a row more, of these cells. -/
def push (s : RowStore) (cells : List Cell) : RowStore :=
  { s with stored := s.stored ++ [⟨s.nextNumber, cells⟩] }

theorem append_eq (s : RowStore) (row : Row) :
    s.append row = (admitted s.name s.columns row).map s.push := by
  unfold append admitted
  split_ifs with hempty hwidth
  · rfl
  · rfl
  · have hkeep : s.coerceRow row = keep s.columns row := rfl
    rw [emptyColumn?, hkeep]
    rcases (s.columns.zip (keep s.columns row)).find? _ with _ | ⟨c, cell⟩
    · rfl
    · rfl

/-- What is kept of a row that was admitted. -/
theorem eq_keep_of_admitted {table : String} {columns : List Column} {row : Row} {cells : List Cell}
    (h : admitted table columns row = .ok cells) : cells = keep columns row := by
  unfold admitted at h
  split_ifs at h with hempty hwidth
  · obtain rfl := Except.ok.inj h
    rw [List.isEmpty_iff.mp hempty]
    rfl
  · rcases hfind : (columns.zip (keep columns row)).find? _ with _ | ⟨c, cell⟩
    · rw [hfind] at h
      exact (Except.ok.inj h).symm
    · rw [hfind] at h
      cases h

theorem foldlM_append_eq (s : RowStore) (rows : List Row) :
    rows.foldlM append s
      = (rows.mapM (admitted s.name s.columns)).map fun added => added.foldl push s := by
  -- adding a row changes neither name nor columns, so the same rows are admitted after it
  induction rows generalizing s with
  | nil => rfl
  | cons row rows ih =>
    rw [List.foldlM_cons, List.mapM_cons, append_eq]
    cases admitted s.name s.columns row with
    | error e => rfl
    | ok cells =>
      show rows.foldlM append (s.push cells) = _
      rw [ih]
      show (rows.mapM (admitted s.name s.columns)).map _ = _
      cases rows.mapM (admitted s.name s.columns) with
      | error e => rfl
      | ok added => rfl

/-- Rows are added if all of them are admitted and no savepoint is open. -/
theorem insertAll_eq (s : RowStore) (rows : List Row) (h : s.savepoints = []) :
    s.insertAll rows
      = (rows.mapM (admitted s.name s.columns)).map fun added => added.foldl push s := by
  rw [insertAll, h, if_pos List.isEmpty_nil, foldlM_append_eq]

/-- No rows are added while a savepoint is open. -/
theorem insertAll_open (s : RowStore) (rows : List Row) (h : s.savepoints ≠ []) :
    s.insertAll rows = .error .statementOpen := by
  rw [insertAll, if_neg (by rwa [List.isEmpty_iff])]

/-- What stays the same when rows are added, and what is added. -/
theorem foldl_push (s : RowStore) (added : List (List Cell)) :
    ∃ rows, added.foldl push s = { s with stored := s.stored ++ rows }
      ∧ rows.map (·.cells) = added ∧ (Numbered s.stored → Numbered (s.stored ++ rows)) := by
  induction added generalizing s with
  | nil => exact ⟨[], by simp, rfl, by simp⟩
  | cons cells added ih =>
    obtain ⟨rows, hfold, hcells, hnumbered⟩ := ih (s.push cells)
    have hassoc : (s.push cells).stored ++ rows = s.stored ++ ⟨s.nextNumber, cells⟩ :: rows :=
      List.append_cons .. |>.symm
    refine ⟨⟨s.nextNumber, cells⟩ :: rows, ?_, ?_, ?_⟩
    · rw [List.foldl_cons, hfold, hassoc]
      rfl
    · rw [List.map_cons, hcells]
    · intro h
      rw [← hassoc]
      exact hnumbered (h.append cells)

/-- The rows of partitions are stored rows, whatever the columns are called. -/
theorem exists_stored_of_mem_rows {s : RowStore} {row : Row} (h : row ∈ s.rows) :
    ∃ r ∈ s.stored, row = s.valuesOf r := by
  obtain ⟨index, -, hrow⟩ := List.mem_flatMap.mp h
  obtain ⟨r, hr, rfl⟩ := List.mem_map.mp hrow
  refine ⟨r, ?_, rfl⟩
  have hordered : r ∈ s.ordered := List.mem_of_mem_filter hr
  unfold ordered at hordered
  split at hordered
  · exact hordered
  · exact List.mem_mergeSort.mp hordered

/-! ### Partitions -/

/-- The rows of one partition with their numbers. -/
def storedIn (s : RowStore) (index : Nat) : List NumberedRow :=
  s.stored.filter fun r => (r.number - 1) % s.partitionCount = index

/-- The rows of all partitions with their numbers. -/
def scanned (s : RowStore) : List NumberedRow := s.partitions.flatMap s.storedIn

theorem partitionOf?_number {count n : Nat} (hn : 1 ≤ n) :
    partitionOf? count (.integer n) = some (((n - 1) % count : Nat) : Int) := by
  -- from one on, a number can be reduced without leaving the 64-bit range
  have hpred : predecessor (.integer n) = ((n - 1 : Nat) : Int) := by
    have hlow : ((n : Int) = -9223372036854775808) = False := by
      rw [eq_iff_iff, iff_false]
      omega
    simp only [predecessor, hlow, if_false]
    omega
  rw [partitionOf?, hpred, partitionOfInt, Int.ofNat_tmod]

theorem partitionRows_eq {s : RowStore} (h : NumbersShown s.columns) (hn : Numbered s.stored)
    (index : Nat) : s.partitionRows index = (s.storedIn index).map s.valuesOf := by
  unfold partitionRows storedIn
  rw [ordered_eq h]
  congr 1
  apply List.filter_congr
  intro r hr
  rw [numberOf_eq h, partitionOf?_number (hn.positive r hr), Bool.eq_iff_iff, beq_iff_eq,
    decide_eq_true_iff, Option.some_inj, Int.ofNat_inj]

theorem rows_eq {s : RowStore} (h : NumbersShown s.columns) (hn : Numbered s.stored) :
    s.rows = s.scanned.map s.valuesOf := by
  have hparts : s.partitionRows = fun index => (s.storedIn index).map s.valuesOf :=
    funext (partitionRows_eq h hn)
  rw [rows, scanned, List.map_flatMap, hparts]

/-- Rows sorted into classes by a number below `n` are the rows they were. -/
theorem perm_classes {α : Type} (f : α → Nat) (l : List α) (n : Nat) :
    ((List.range n).flatMap fun i => l.filter fun a => f a = i).Perm
      (l.filter fun a => f a < n) := by
  induction n with
  | zero => simp
  | succ n ih =>
    -- what is below `n + 1` is below `n` or is `n`, and only the latter makes a new class
    have hbelow : (l.filter fun a => f a < n)
        = (l.filter fun a => f a < n + 1).filter fun a => decide (f a < n) := by
      rw [List.filter_filter]
      apply List.filter_congr
      intro a _
      rw [Bool.eq_iff_iff, Bool.and_eq_true, decide_eq_true_iff, decide_eq_true_iff]
      omega
    have hlast : (l.filter fun a => f a = n)
        = (l.filter fun a => f a < n + 1).filter fun a => !decide (f a < n) := by
      rw [List.filter_filter]
      apply List.filter_congr
      intro a _
      rw [Bool.eq_iff_iff, Bool.and_eq_true, Bool.not_eq_true', decide_eq_false_iff_not,
        decide_eq_true_iff, decide_eq_true_iff]
      omega
    rw [List.range_succ, List.flatMap_append, List.flatMap_singleton, hlast]
    exact (ih.append_right _).trans (hbelow ▸ List.filter_append_perm _ _)

theorem perm_scanned (s : RowStore) : s.scanned.Perm s.stored := by
  have hall : (s.stored.filter fun r => (r.number - 1) % s.partitionCount < s.partitionCount)
      = s.stored := by
    rw [List.filter_eq_self]
    intro r _
    exact decide_eq_true (Nat.mod_lt _ s.partitionCount_pos)
  have hperm := perm_classes (fun r => (r.number - 1) % s.partitionCount) s.stored s.partitionCount
  rw [hall] at hperm
  exact hperm

/-- Every stored row is in one partition. -/
theorem perm_rows {s : RowStore} (h : NumbersShown s.columns) (hn : Numbered s.stored) :
    s.rows.Perm (s.stored.map s.valuesOf) := by
  rw [rows_eq h hn]
  exact (perm_scanned s).map _

/-- A partition has its rows in insertion order. -/
theorem partitionRows_sublist {s : RowStore} (h : NumbersShown s.columns) (hn : Numbered s.stored)
    (index : Nat) : (s.partitionRows index).Sublist (s.stored.map s.valuesOf) := by
  rw [partitionRows_eq h hn]
  exact List.filter_sublist.map _

end ShopTables.RowStore
