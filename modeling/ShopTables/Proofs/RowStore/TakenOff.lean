import ShopTables.Proofs.RowStore.KeptCells

/-!
# Rows taken off by their keys

Deleting rows of a store one after the other takes off, for each of their keys in turn, the first
row left that has it (`Regular.foldlM_deleteRow_eq`). So of the rows of one key as many go as rows
with that key were deleted, and always the first ones (`filter_takeOff`, `Regular.filter_deleted`);
and if no row of a deleted key is left over, all other rows are left as they were
(`takeOff_eq_filter`, `Regular.rows_deleted`).
-/

namespace ShopTables.RowStore

section

variable {α κ : Type}

theorem eraseP_congr {l : List α} {p q : α → Bool} (h : ∀ a ∈ l, p a = q a) :
    l.eraseP p = l.eraseP q := by
  induction l with
  | nil => rfl
  | cons a l ih =>
    rw [List.eraseP_cons, List.eraseP_cons, h a List.mem_cons_self,
      ih fun b hb => h b (List.mem_cons_of_mem a hb)]

theorem filter_eraseP_self (l : List α) (p : α → Bool) :
    (l.eraseP p).filter p = (l.filter p).drop 1 := by
  induction l with
  | nil => rfl
  | cons a l ih =>
    by_cases ha : p a = true
    · rw [List.eraseP_cons_of_pos ha, List.filter_cons_of_pos ha]
      rfl
    · rw [List.eraseP_cons_of_neg ha, List.filter_cons_of_neg ha, ih, List.filter_cons_of_neg ha]

theorem filter_eraseP_of_not (l : List α) {p q : α → Bool} (h : ∀ a, q a = true → ¬p a = true) :
    (l.eraseP p).filter q = l.filter q := by
  induction l with
  | nil => rfl
  | cons a l ih =>
    by_cases ha : p a = true
    · rw [List.eraseP_cons_of_pos ha, List.filter_cons_of_neg fun hq => h a hq ha]
    · rw [List.eraseP_cons_of_neg ha, List.filter_cons, ih, List.filter_cons]

/-! ### Elements with a key -/

variable [DecidableEq κ]

/-- Takes off, for each key in turn, the first element that has it. -/
def takeOff (key : α → κ) : List κ → List α → List α
  | [], l => l
  | k :: keys, l => takeOff key keys (l.eraseP fun a => key a = k)

variable (key : α → κ)

theorem takeOff_sublist (keys : List κ) (l : List α) : (takeOff key keys l).Sublist l := by
  induction keys generalizing l with
  | nil => exact List.Sublist.refl _
  | cons k keys ih => exact (ih _).trans List.eraseP_sublist

/-- Of the elements of one key the first ones go, as many as the key was named. -/
theorem filter_takeOff (keys : List κ) (l : List α) (k : κ) :
    (takeOff key keys l).filter (fun a => key a = k)
      = (l.filter fun a => key a = k).drop (keys.count k) := by
  induction keys generalizing l with
  | nil => rfl
  | cons k' keys ih =>
    rw [takeOff, ih]
    by_cases hk : k' = k
    · subst hk
      rw [filter_eraseP_self, List.drop_drop, List.count_cons_self, Nat.add_comm]
    · have hother : ∀ a, decide (key a = k) = true → ¬decide (key a = k') = true := by
        intro a ha hsame
        exact hk ((of_decide_eq_true hsame).symm.trans (of_decide_eq_true ha))
      rw [filter_eraseP_of_not l hother, List.count_cons_of_ne hk]

theorem filter_takeOff_of_not_mem (keys : List κ) (l : List α) :
    (takeOff key keys l).filter (fun a => key a ∉ keys) = l.filter fun a => key a ∉ keys := by
  have hfilter : ∀ (named : List κ) (l : List α), named ⊆ keys →
      (takeOff key named l).filter (fun a => key a ∉ keys) = l.filter fun a => key a ∉ keys := by
    intro named
    induction named with
    | nil => intro l _; rfl
    | cons k named ih =>
      intro l hnamed
      obtain ⟨hk, hrest⟩ := List.cons_subset.mp hnamed
      have hother : ∀ a, decide (key a ∉ keys) = true → ¬decide (key a = k) = true := by
        intro a ha hsame
        exact of_decide_eq_true ha (of_decide_eq_true hsame ▸ hk)
      rw [takeOff, ih _ hrest, filter_eraseP_of_not l hother]
  exact hfilter keys l (List.Subset.refl keys)

/-- If each key is named as often as it occurs, all elements of other keys are left, and no
others. -/
theorem takeOff_eq_filter {keys : List κ} {l : List α}
    (h : ∀ k ∈ keys, l.countP (fun a => key a = k) ≤ keys.count k) :
    takeOff key keys l = l.filter fun a => key a ∉ keys := by
  rw [← filter_takeOff_of_not_mem key keys l, eq_comm, List.filter_eq_self]
  intro a ha
  rw [decide_eq_true_iff]
  -- of a key that is named, not one element is left
  intro hmem
  have hnone : (takeOff key keys l).filter (fun b => key b = key a) = [] := by
    rw [filter_takeOff, List.drop_eq_nil_iff, ← List.countP_eq_length_filter]
    exact h _ hmem
  rw [List.filter_eq_nil_iff] at hnone
  exact hnone a ha (decide_eq_true rfl)

end

/-! ### Rows of a store -/

/-- A store whose rows have numbers that can be seen and cells such as the columns keep. -/
structure Regular (s : RowStore) : Prop where
  shown : NumbersShown s.columns
  numbered : Numbered s.stored
  kept : ∀ r ∈ s.stored, Kept s.columns r.cells

namespace Regular

variable {s : RowStore}

theorem of_sublist (h : Regular s) {left : List NumberedRow} (hleft : left.Sublist s.stored) :
    Regular { s with stored := left } :=
  ⟨h.shown, h.numbered.sublist hleft, fun r hr => h.kept r (hleft.subset hr)⟩

theorem kept_of_mem_rows (h : Regular s) {row : Row} (hrow : row ∈ s.rows) :
    Kept s.columns (row.map Cell.ofValue) := by
  obtain ⟨r, hr, rfl⟩ := exists_stored_of_mem_rows hrow
  rw [ofValue_valuesOf (h.kept r hr)]
  exact h.kept r hr

theorem rowKey_valuesOf (h : Regular s) {r : NumberedRow} (hr : r ∈ s.stored) :
    rowKey s.columns (s.valuesOf r) = keyOf s.columns r.cells := by
  rw [rowKey, ofValue_valuesOf (h.kept r hr)]

theorem sameKey_eq (h : Regular s) {row other : Row} (hrow : row ∈ s.rows)
    (hother : other ∈ s.rows) :
    sameKey s.columns row other = decide (rowKey s.columns other = rowKey s.columns row) :=
  hasKey_eq (h.kept_of_mem_rows hrow) (h.kept_of_mem_rows hother)

/-- Deleting rows takes off a row for each of their keys. -/
theorem foldlM_deleteRow_eq (h : Regular s) {s' : RowStore} {rows : List Row}
    (hrows : ∀ row ∈ rows, Kept s.columns (row.map Cell.ofValue))
    (hfold : rows.foldlM deleteRow s = .ok s') :
    s'.stored
      = takeOff (fun r => keyOf s.columns r.cells) (rows.map (rowKey s.columns)) s.stored := by
  induction rows generalizing s with
  | nil =>
    cases hfold
    rfl
  | cons row rows ih =>
    rw [List.foldlM_cons] at hfold
    cases hrow : s.deleteRow row with
    | error e =>
      rw [hrow] at hfold
      cases hfold
    | ok s₁ =>
      rw [hrow] at hfold
      have hstored : s.stored.eraseP (fun r => hasKey s.columns row r.cells)
          = s.stored.eraseP fun r => keyOf s.columns r.cells = rowKey s.columns row := by
        apply eraseP_congr
        intro r hr
        exact hasKey_eq (hrows row List.mem_cons_self) (h.kept r hr)
      have hleft := List.eraseP_sublist (l := s.stored) (p := fun r =>
        keyOf s.columns r.cells = rowKey s.columns row)
      rw [deleteRow_eq h.shown h.numbered, hstored] at hrow
      rw [List.map_cons, takeOff]
      generalize s.stored.eraseP _ = left at hleft hrow ⊢
      split_ifs at hrow
      obtain rfl := Except.ok.inj hrow
      exact ih (h.of_sublist hleft) (fun row hrow => hrows row (List.mem_cons_of_mem _ hrow)) hfold

/-- The rows of a key, counted as they come back and as they are stored. -/
theorem countP_rows (h : Regular s) (row : Row) :
    s.rows.countP (sameKey s.columns row)
      = (s.stored.filter fun r => hasKey s.columns row r.cells).length := by
  rw [(perm_rows h.shown h.numbered).countP_eq, List.countP_map, List.countP_eq_length_filter]
  congr 1
  apply List.filter_congr
  intro r hr
  rw [Function.comp_apply, sameKey, ofValue_valuesOf (h.kept r hr)]

/-- Rows that are left out leave the others in the order in which they came back. -/
theorem rows_filter (h : Regular s) {p : NumberedRow → Bool} {q : Row → Bool}
    (hpq : ∀ r ∈ s.stored, q (s.valuesOf r) = p r) :
    RowStore.rows { s with stored := s.stored.filter p } = s.rows.filter q := by
  have hleft := h.of_sublist (List.filter_sublist (p := p))
  -- leaving rows out and sorting into partitions can be done in either order
  have hscanned : scanned { s with stored := s.stored.filter p } = s.scanned.filter p := by
    rw [scanned, scanned, List.filter_flatMap]
    refine List.flatMap_congr fun index _ => ?_
    rw [storedIn, storedIn, List.filter_filter, List.filter_filter]
    exact List.filter_congr fun r _ => Bool.and_comm _ _
  rw [rows_eq hleft.shown hleft.numbered, rows_eq h.shown h.numbered, hscanned, List.filter_map]
  show (s.scanned.filter p).map s.valuesOf = _
  congr 1
  apply List.filter_congr
  intro r hr
  exact (hpq r ((perm_scanned s).mem_iff.mp hr)).symm

/-- Rows of a key are counted by their key. -/
theorem countP_sameKey (h : Regular s) {rows : List Row} (hrows : rows ⊆ s.rows) {row : Row}
    (hrow : row ∈ s.rows) :
    rows.countP (sameKey s.columns row)
      = (rows.map (rowKey s.columns)).count (rowKey s.columns row) := by
  rw [List.count, List.countP_map]
  apply List.countP_congr
  intro other hother
  rw [h.sameKey_eq hrow (hrows hother), Function.comp_apply, decide_eq_true_iff, beq_iff_eq]

/-- Of the rows of a key the first ones go, as many as rows of that key were deleted. -/
theorem filter_deleted (h : Regular s) {s' : RowStore} {rows : List Row} (hrows : rows ⊆ s.rows)
    (hfold : rows.foldlM deleteRow s = .ok s') {row : Row} (hrow : row ∈ s.rows) :
    (s'.stored.filter fun r => hasKey s.columns row r.cells)
      = (s.stored.filter fun r => hasKey s.columns row r.cells).drop
          (rows.countP (sameKey s.columns row)) := by
  have htaken := h.foldlM_deleteRow_eq (fun r hr => h.kept_of_mem_rows (hrows hr)) hfold
  have hkey : ∀ r ∈ s.stored, hasKey s.columns row r.cells
      = decide (keyOf s.columns r.cells = rowKey s.columns row) :=
    fun r hr => hasKey_eq (h.kept_of_mem_rows hrow) (h.kept r hr)
  have hsub : s'.stored.Sublist s.stored := htaken ▸ takeOff_sublist _ _ _
  rw [List.filter_congr hkey, List.filter_congr fun r hr => hkey r (hsub.subset hr),
    h.countP_sameKey hrows hrow, htaken]
  exact filter_takeOff _ _ _ _

/-- If all rows of the deleted keys are deleted, the others are left. -/
theorem rows_deleted (h : Regular s) {s' : RowStore} {rows : List Row} (hrows : rows ⊆ s.rows)
    (hfold : rows.foldlM deleteRow s = .ok s')
    (hall : ∀ row ∈ rows, s.rows.countP (sameKey s.columns row)
      ≤ rows.countP (sameKey s.columns row)) :
    s'.rows = s.rows.filter fun other => rowKey s.columns other ∉ rows.map (rowKey s.columns) := by
  have hsame := h.foldlM_deleteRow_eq (fun r hr => h.kept_of_mem_rows (hrows hr)) hfold
  obtain ⟨left, -, rfl⟩ := foldlM_deleteRow_frame hfold
  have hgone : ∀ k ∈ rows.map (rowKey s.columns),
      s.stored.countP (fun r => keyOf s.columns r.cells = k)
        ≤ (rows.map (rowKey s.columns)).count k := by
    intro k hk
    obtain ⟨row, hrow, rfl⟩ := List.mem_map.mp hk
    have hstored : s.stored.countP (fun r => keyOf s.columns r.cells = rowKey s.columns row)
        = s.rows.countP (sameKey s.columns row) := by
      rw [h.countP_rows, List.countP_eq_length_filter]
      congr 1
      apply List.filter_congr
      intro r hr
      exact (hasKey_eq (h.kept_of_mem_rows (hrows hrow)) (h.kept r hr)).symm
    rw [hstored, ← h.countP_sameKey hrows (hrows hrow)]
    exact hall row hrow
  rw [takeOff_eq_filter _ hgone] at hsame
  obtain rfl : left = _ := hsame
  apply h.rows_filter
  intro r hr
  rw [h.rowKey_valuesOf hr]

end Regular

end ShopTables.RowStore
