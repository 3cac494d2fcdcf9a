import ShopTables.Proofs.RowStore.Numbers

/-!
# Deleting by key

Rows are told apart by the cells of their key columns (`keyColumns`, `hasKey`). A delete changes
nothing but the rows (`deleteRow_frame`); as long as no column is called `rowid` it takes off the
first row that has the key, and only that one (`deleteRow_eq`).
-/

namespace ShopTables.RowStore

/-- The columns that tell rows apart, with their places: the primary key, or all columns if there
is none. -/
def keyColumns (columns : List Column) : List (Column × Nat) :=
  let primary := columns.zipIdx.filter (·.1.primaryKey)
  if primary.isEmpty then columns.zipIdx else primary

/-- Do stored cells have the key of a row? A cell that the row lacks counts as empty. -/
def hasKey (columns : List Column) (row : Row) (cells : List Cell) : Bool :=
  (keyColumns columns).all fun (c, i) =>
    c.storageType.agree (cells.getD i .null) (Cell.ofValue (row.getD i .null))

/-! ### Key columns and their places -/

theorem keyColumns_sublist (columns : List Column) :
    (keyColumns columns).Sublist columns.zipIdx := by
  unfold keyColumns
  dsimp only
  split_ifs
  · exact List.Sublist.refl _
  · exact List.filter_sublist

theorem mem_keyColumns_of_primaryKey {columns : List Column} {c : Column} {i : Nat}
    (hc : columns[i]? = some c) (hprimary : c.primaryKey = true) : (c, i) ∈ keyColumns columns := by
  have hplace : (c, i) ∈ columns.zipIdx := List.mem_zipIdx_iff_getElem?.mpr hc
  unfold keyColumns
  dsimp only
  split_ifs
  · exact hplace
  · exact List.mem_filter.mpr ⟨hplace, hprimary⟩

theorem primaryPlaces_eq (columns : List (Column × Nat)) :
    (columns.filterMap fun (c, i) => if c.primaryKey then some i else none)
      = (columns.filter (·.1.primaryKey)).map (·.2) := by
  induction columns with
  | nil => rfl
  | cons p rest ih =>
    obtain ⟨c, i⟩ := p
    rw [List.filterMap_cons, List.filter_cons, ih]
    cases hp : c.primaryKey with
    | true => simp [hp]
    | false => simp [hp]

theorem keyOrdinals_eq (s : RowStore) : s.keyOrdinals = (keyColumns s.columns).map (·.2) := by
  unfold keyOrdinals keyColumns
  dsimp only
  rw [primaryPlaces_eq, List.isEmpty_map]
  split_ifs
  · rw [List.zipIdx_map_snd, List.range_eq_range']
  · rfl

theorem hasKeyOf_eq (s : RowStore) (row : Row) (r : NumberedRow) :
    s.hasKeyOf row r = hasKey s.columns row r.cells := by
  rw [hasKeyOf, hasKey, keyOrdinals_eq, List.all_map, Bool.eq_iff_iff, List.all_eq_true,
    List.all_eq_true]
  refine forall₂_congr fun p hp => ?_
  have hplace : s.columns[p.2]? = some p.1 :=
    List.mem_zipIdx_iff_getElem?.mp ((keyColumns_sublist s.columns).subset hp)
  rw [Function.comp_apply, agreeAt, hplace]

/-! ### Deleting -/

/-- A delete changes the rows only, and takes off some of them. -/
theorem deleteRow_frame {s s' : RowStore} {row : Row} (h : s.deleteRow row = .ok s') :
    ∃ rows, rows.Sublist s.stored ∧ s' = { s with stored := rows } := by
  unfold deleteRow at h
  split_ifs at h
  split at h
  · cases h
  · split_ifs at h
    cases h
    exact ⟨_, List.filter_sublist, rfl⟩

/-- So do several deletes. -/
theorem foldlM_deleteRow_frame {s s' : RowStore} {rows : List Row}
    (h : rows.foldlM deleteRow s = .ok s') :
    ∃ kept, kept.Sublist s.stored ∧ s' = { s with stored := kept } := by
  induction rows generalizing s with
  | nil =>
    cases h
    exact ⟨_, List.Sublist.refl _, rfl⟩
  | cons row rows ih =>
    rw [List.foldlM_cons] at h
    cases hrow : s.deleteRow row with
    | error e =>
      rw [hrow] at h
      cases h
    | ok s₁ =>
      rw [hrow] at h
      obtain ⟨kept₁, hsub₁, rfl⟩ := deleteRow_frame hrow
      obtain ⟨kept, hsub, rfl⟩ := ih h
      exact ⟨kept, hsub.trans hsub₁, rfl⟩

/-- What a delete does is the same whatever savepoints are open. -/
theorem deleteRow_withSavepoints (s : RowStore) (savepoints : List Savepoint) (row : Row) :
    ({ s with savepoints } : RowStore).deleteRow row
      = (s.deleteRow row).map fun s' => { s' with savepoints } := by
  have hordinals : ({ s with savepoints } : RowStore).keyOrdinals = s.keyOrdinals := rfl
  have hkey : ({ s with savepoints } : RowStore).hasKeyOf row = s.hasKeyOf row := rfl
  unfold deleteRow
  rw [hordinals, hkey]
  split_ifs
  · rfl
  · dsimp only
    cases s.stored.find? (s.hasKeyOf row) with
    | none => rfl
    | some r =>
      have hnumber : ({ s with savepoints } : RowStore).numberOf r = s.numberOf r := rfl
      dsimp only
      rw [hnumber]
      split_ifs
      · rfl
      · rfl

theorem foldlM_deleteRow_withSavepoints (s : RowStore) (savepoints : List Savepoint)
    (rows : List Row) :
    rows.foldlM deleteRow ({ s with savepoints } : RowStore)
      = (rows.foldlM deleteRow s).map fun s' => { s' with savepoints } := by
  induction rows generalizing s with
  | nil => rfl
  | cons row rows ih =>
    rw [List.foldlM_cons, List.foldlM_cons, deleteRow_withSavepoints]
    cases s.deleteRow row with
    | error e => rfl
    | ok s₁ => exact ih s₁

/-- Among rows with ascending numbers, those with the number of the first that passes a test are
that one alone. -/
theorem filter_number_eq_eraseP {rows : List NumberedRow} {p : NumberedRow → Bool}
    {r : NumberedRow} (hasc : rows.Pairwise fun a b => a.number < b.number)
    (hfind : rows.find? p = some r) :
    rows.filter (fun other => other.number ≠ r.number) = rows.eraseP p := by
  induction rows with
  | nil => cases hfind
  | cons a rest ih =>
    obtain ⟨ha, hrest⟩ := List.pairwise_cons.mp hasc
    by_cases hp : p a = true
    · rw [List.find?_cons_of_pos hp] at hfind
      obtain rfl := Option.some.inj hfind
      rw [List.eraseP_cons_of_pos hp, List.filter_cons_of_neg (by simp), List.filter_eq_self]
      intro b hb
      exact decide_eq_true (Nat.ne_of_gt (ha b hb))
    · rw [List.find?_cons_of_neg hp] at hfind
      -- `a` stands before the row that is found, so it has another number and is left
      have hlt : a.number < r.number := ha r (List.mem_of_find?_eq_some hfind)
      rw [List.eraseP_cons_of_neg hp, List.filter_cons, ih hrest hfind,
        if_pos (decide_eq_true (Nat.ne_of_lt hlt))]

theorem goesWith_eq {s : RowStore} (h : NumbersShown s.columns) (r other : NumberedRow) :
    s.goesWith r other = decide (other.number = r.number) := by
  have hnull : (Cell.integer r.number).isNull = false := rfl
  have hcompare : (Cell.integer other.number).compareTo (.integer r.number)
      = compare (other.number : Int) r.number := rfl
  rw [goesWith, numberOf_eq h, numberOf_eq h, hnull, hcompare, Bool.not_false, Bool.true_and,
    Bool.eq_iff_iff, beq_iff_eq, decide_eq_true_iff, Int.compare_eq_eq, Int.ofNat_inj]

/-- What deleting does to rows with ascending numbers. -/
theorem deleteRow_eq {s : RowStore} (h : NumbersShown s.columns) (hn : Numbered s.stored)
    (row : Row) :
    s.deleteRow row =
      if maxKeyColumns < (keyColumns s.columns).length then .error .keyTooWide
      else if s.stored.any fun r => hasKey s.columns row r.cells then
        .ok { s with stored := s.stored.eraseP fun r => hasKey s.columns row r.cells }
      else .error (.rowNotFound s.name) := by
  have hkey : s.hasKeyOf row = fun r => hasKey s.columns row r.cells := funext (hasKeyOf_eq s row)
  rw [deleteRow, keyOrdinals_eq, List.length_map, hkey]
  by_cases hwide : maxKeyColumns < (keyColumns s.columns).length
  · rw [if_pos hwide, if_pos hwide]
  · rw [if_neg hwide, if_neg hwide]
    cases hfind : s.stored.find? fun r => hasKey s.columns row r.cells with
    | none =>
      have hany : (s.stored.any fun r => hasKey s.columns row r.cells) = false := by
        rw [List.any_eq_false]
        exact List.find?_eq_none.mp hfind
      rw [hany]
      rfl
    | some r =>
      have hr := List.find?_some hfind
      have hany : (s.stored.any fun r => hasKey s.columns row r.cells) = true :=
        List.any_eq_true.mpr ⟨r, List.mem_of_find?_eq_some hfind, hr⟩
      -- only the row that was found has its number, so no other row goes with it
      have hkeep : (s.stored.filter fun other => !s.goesWith r other)
          = s.stored.eraseP fun r => hasKey s.columns row r.cells := by
        rw [← filter_number_eq_eraseP hn.ascending hfind]
        apply List.filter_congr
        intro other _
        rw [goesWith_eq h, decide_not]
      have hnull : (s.numberOf r).isNull = false := by
        rw [numberOf_eq h]
        rfl
      rw [hany, if_pos rfl, ← hkeep]
      show (if (s.numberOf r).isNull = true then _ else _) = _
      rw [hnull]
      rfl

/-- If a key is not too wide, deleting takes off the first row that has it, and fails if there is
none. -/
theorem deleteRow_cases {s : RowStore} (h : NumbersShown s.columns) (hn : Numbered s.stored)
    (row : Row) :
    (∃ before r after, s.stored = before ++ r :: after
        ∧ (∀ q ∈ before, hasKey s.columns row q.cells = false)
        ∧ hasKey s.columns row r.cells = true
        ∧ (keyColumns s.columns).length ≤ maxKeyColumns
        ∧ s.deleteRow row = .ok { s with stored := before ++ after })
      ∨ (∃ cause, s.deleteRow row = .error cause)
        ∧ ((keyColumns s.columns).length ≤ maxKeyColumns →
            ∀ r ∈ s.stored, hasKey s.columns row r.cells = false) := by
  rw [deleteRow_eq h hn]
  by_cases hwide : maxKeyColumns < (keyColumns s.columns).length
  · rw [if_pos hwide]
    exact .inr ⟨⟨_, rfl⟩, fun hnarrow => absurd hwide (Nat.not_lt.mpr hnarrow)⟩
  · rw [if_neg hwide]
    cases hany : s.stored.any fun r => hasKey s.columns row r.cells with
    | false =>
      rw [if_neg Bool.false_ne_true]
      exact .inr ⟨⟨_, rfl⟩, fun _ r hr => Bool.eq_false_iff.mpr (List.any_eq_false.mp hany r hr)⟩
    | true =>
      obtain ⟨q, hq, hkey⟩ := List.any_eq_true.mp hany
      obtain ⟨r, before, after, hbefore, hr, hstored, herase⟩ :=
        List.exists_of_eraseP (p := fun r => hasKey s.columns row r.cells) hq hkey
      rw [if_pos rfl, herase]
      exact .inl ⟨before, r, after, hstored,
        fun q hq => Bool.eq_false_iff.mpr (hbefore q hq), hr, Nat.not_lt.mp hwide, rfl⟩

end ShopTables.RowStore
