import ShopTables.Proofs.RowStore.AlikeCells
import ShopTables.Proofs.RowStore.Partitions
import ShopTables.Proofs.Table.EditorLedger

/-!
# The key that a delete keeps

```
    given row  --hasKey-->  stored row that goes  --valuesOf, keyTuple-->  its key
        |
     keyTuple
        v
    key that is kept
```

A delete takes off the first stored row that agrees with the given one, and keeps the key of the
given row. The two keys are the same exactly if both rows show the same text in each column of the
primary key, and so they are if the given values are of their columns' kinds
(`BulkEditor.delete_keeps_given_key`). A value of another kind may be shown otherwise than the cell
it agrees with; then the key kept is not that of the row that went, but perhaps that of another
(`BulkEditor.delete_keeps_other_key`).
-/

namespace ShopTables

/-- Maps made of the same names agree exactly if they have the same values. -/
theorem KeyList.ofList_map_eq_iff {α β : Type} {name : α → String} {f g : α → β} {l : List α}
    (h : (l.map name).Nodup) :
    ofList (l.map fun a => (name a, f a)) = ofList (l.map fun a => (name a, g a))
      ↔ ∀ a ∈ l, f a = g a := by
  have hnames (k : α → β) : ((l.map fun a => (name a, k a)).map (·.1)).Nodup := by
    rw [List.map_map]
    exact h
  constructor
  · intro hsame a ha
    have hmem : (name a, f a) ∈ ofList (l.map fun a => (name a, g a)) := by
      rw [← hsame]
      exact (perm_ofList (hnames f)).mem_iff.mpr (List.mem_map_of_mem ha)
    obtain ⟨b, hb, hpair⟩ := List.mem_map.mp ((perm_ofList (hnames g)).mem_iff.mp hmem)
    obtain ⟨hname, hvalue⟩ := Prod.mk.inj hpair
    rw [← hvalue, List.inj_on_of_nodup_map h hb ha hname]
  · intro hall
    refine congrArg ofList (List.map_congr_left fun a ha => ?_)
    rw [hall a ha]

namespace RowStore

theorem getElem?_zip_of_some {α β : Type} {as : List α} {i : Nat} {a : α} (h : as[i]? = some a)
    (bs : List β) : (as.zip bs)[i]? = (bs[i]?).map fun b => (a, b) := by
  rw [List.zip, List.getElem?_zipWith, h]
  cases bs[i]? <;> rfl

theorem getD_valuesOf {s : RowStore} {r : NumberedRow} {i : Nat} {c : Column}
    (hc : s.columns[i]? = some c) :
    (s.valuesOf r).getD i .null = (r.cells.getD i .null).toValue c := by
  rw [List.getD_eq_getElem?_getD, List.getD_eq_getElem?_getD, valuesOf, List.getElem?_map,
    getElem?_zip_of_some hc]
  cases r.cells[i]? <;> rfl

/-- What is kept of a row, in one column; a value that is missing is kept as null is. -/
theorem getD_keep {columns : List Column} {i : Nat} {c : Column} (row : Row)
    (hc : columns[i]? = some c) :
    (keep columns row).getD i .null = c.kept (row.getD i .null) := by
  rw [List.getD_eq_getElem?_getD, List.getD_eq_getElem?_getD, keep, List.getElem?_map,
    getElem?_zip_of_some hc]
  cases row[i]? with
  | none => exact Column.kept_null.symm
  | some v => rfl

/-- Stored cells are those that the columns keep of a row that was added. -/
theorem Traced.exists_keep {inserted : List Row} {s : RowStore} (h : Traced inserted s)
    {r : NumberedRow} (hr : r ∈ s.stored) : ∃ row ∈ inserted, r.cells = keep s.columns row := by
  have hcells : r.cells ∈ contents s.stored := List.mem_map_of_mem hr
  obtain ⟨row, hrow, hkeep⟩ := List.mem_map.mp (h.stored.sublist.subset hcells)
  exact ⟨row, hrow, hkeep.symm⟩

/-- A value that comes back as it was is what a row with the same key has. -/
theorem Traced.valuesOf_eq_of_hasKey {inserted : List Row} {s : RowStore} (h : Traced inserted s)
    {row : Row} {r : NumberedRow} (hr : r ∈ s.stored) (hkey : hasKey s.columns row r.cells = true)
    {i : Nat} {c : Column} (hc : s.columns[i]? = some c) (hprimary : c.primaryKey = true)
    (hreturns : c.Returns (row.getD i .null)) :
    (s.valuesOf r).getD i .null = row.getD i .null := by
  obtain ⟨given, -, hcells⟩ := h.exists_keep hr
  have hagree := List.all_eq_true.mp hkey _ (mem_keyColumns_of_primaryKey hc hprimary)
  dsimp only at hagree
  rw [hcells, getD_keep given hc] at hagree
  rw [getD_valuesOf hc, hcells, getD_keep given hc]
  exact Column.toValue_of_agree hreturns hagree

end RowStore

namespace BulkEditor

/-- There is a key if there is a primary key. -/
theorem exists_keyOf? {d : TableDefinition} (row : Row) {c : Column} (hc : c ∈ d.columns)
    (hprimary : c.primaryKey = true) : ∃ key, keyOf? d row = some key := by
  obtain ⟨i, hi, rfl⟩ := List.getElem_of_mem hc
  have hplace : i ∈ d.primaryKeyOrdinals := by
    rw [TableDefinition.primaryKeyOrdinals, RowStore.primaryPlaces_eq]
    refine List.mem_map.mpr ⟨(d.columns[i], i), List.mem_filter.mpr ⟨?_, hprimary⟩, rfl⟩
    exact List.mem_zipIdx_iff_getElem?.mpr (List.getElem?_eq_getElem hi)
  have hsome : ¬ d.primaryKeyOrdinals.isEmpty = true := by
    rw [List.isEmpty_iff]
    exact List.ne_nil_of_mem hplace
  exact ⟨_, if_neg hsome⟩

theorem exists_primaryKey_of_keyOf? {d : TableDefinition} {row : Row} {key : RecordKey}
    (h : keyOf? d row = some key) : ∃ c ∈ d.columns, c.primaryKey = true := by
  unfold keyOf? at h
  split_ifs at h with hempty
  rw [List.isEmpty_iff, TableDefinition.primaryKeyOrdinals, RowStore.primaryPlaces_eq,
    List.map_eq_nil_iff] at hempty
  obtain ⟨p, hp⟩ := List.exists_mem_of_ne_nil _ hempty
  obtain ⟨hplace, hprimary⟩ := List.mem_filter.mp hp
  exact ⟨p.1, List.mem_of_getElem? (List.mem_zipIdx_iff_getElem?.mp hplace), hprimary⟩

/-- Rows have one key exactly if they show the same texts in the columns of the primary key. -/
theorem keyTuple_eq_iff {d : TableDefinition} (hnames : (d.columns.map (·.name)).Nodup)
    (row row' : Row) :
    keyTuple d row = keyTuple d row' ↔ ∀ (i : Nat) (c : Column), d.columns[i]? = some c →
      c.primaryKey = true → (row.getD i .null).display = (row'.getD i .null).display := by
  have hkeyNames : ((d.columns.zipIdx.filter (·.1.primaryKey)).map fun p => p.1.name).Nodup := by
    refine List.Nodup.sublist (List.filter_sublist.map _) ?_
    have hfst : d.columns.zipIdx.map (fun p => p.1.name) = d.columns.map (·.name) := by
      calc d.columns.zipIdx.map (fun p => p.1.name)
          = (d.columns.zipIdx.map (·.1)).map (·.name) := by rw [List.map_map]; rfl
        _ = d.columns.map (·.name) := by rw [List.zipIdx_map_fst]
    rwa [hfst]
  refine (KeyList.ofList_map_eq_iff hkeyNames).trans ⟨fun h i c hc hprimary => ?_, ?_⟩
  · exact h (c, i) (List.mem_filter.mpr ⟨List.mem_zipIdx_iff_getElem?.mpr hc, hprimary⟩)
  · rintro h ⟨c, i⟩ hp
    obtain ⟨hplace, hprimary⟩ := List.mem_filter.mp hp
    exact h i c (List.mem_zipIdx_iff_getElem?.mp hplace) hprimary

variable {P σ : Type} [DecidableEq P] {s : Session σ} {e : BulkEditor}

/-- A delete without a key to keep or without a row to take off changes nothing. -/
theorem exists_delete_error {store : RowStore} (hstore : s.store? e.store = some store) (row : Row)
    (hnot : ∀ key store', keyOf? e.definition row = some key →
      store.deleteRow row ≠ .ok store') :
    ∃ cause, (delete row).runFrom (s, e) = (.error cause, s, e) := by
  have hcases := delete_cases (Session.lt_of_store? hstore) row store e.deleter e.pending
  rw [state_self hstore] at hcases
  obtain ⟨key, store', hkey, hrow, -⟩ | hfails := hcases
  · exact absurd hrow (hnot key store' hkey)
  · exact hfails

/-- A delete takes off the first row that has the key of the given one and keeps the key of the given
row; or else it changes nothing, for want of a primary key that is not too wide or of such a row. -/
theorem delete_first_or_nothing {store : RowStore} (hstore : s.store? e.store = some store)
    (hcolumns : store.columns = e.definition.columns)
    (hshown : RowStore.NumbersShown store.columns) (hnumbered : RowStore.Numbered store.stored)
    (row : Row) :
    ((∃ c ∈ e.definition.columns, c.primaryKey = true)
        ∧ (RowStore.keyColumns e.definition.columns).length ≤ RowStore.maxKeyColumns
        ∧ ∃ before r after, store.stored = before ++ r :: after
          ∧ (∀ q ∈ before, RowStore.hasKey e.definition.columns row q.cells = false)
          ∧ RowStore.hasKey e.definition.columns row r.cells = true
          ∧ (delete row).runFrom (s, e)
              = (.ok (), s.setStore e.store { store with stored := before ++ after },
                  { e with pending := e.pending ++ [keyTuple e.definition row] }))
      ∨ (∃ cause, (delete row).runFrom (s, e) = (.error cause, s, e))
        ∧ ¬ ((∃ c ∈ e.definition.columns, c.primaryKey = true)
          ∧ (RowStore.keyColumns e.definition.columns).length ≤ RowStore.maxKeyColumns
          ∧ ∃ r ∈ store.stored, RowStore.hasKey e.definition.columns row r.cells = true) := by
  cases hkey : keyOf? e.definition row with
  | none =>
    refine .inr ⟨exists_delete_error hstore row fun key _ hsome => ?_, ?_⟩
    · rw [hkey] at hsome
      cases hsome
    · rintro ⟨⟨c, hc, hprimary⟩, -⟩
      obtain ⟨key, hsome⟩ := exists_keyOf? row hc hprimary
      rw [hkey] at hsome
      cases hsome
  | some key =>
    have hprimary := exists_primaryKey_of_keyOf? hkey
    obtain rfl := eq_keyTuple_of_keyOf? hkey
    obtain ⟨before, r, after, hstored, hbefore, hr, hnarrow, hdelete⟩ | ⟨⟨cause, hfail⟩, hnone⟩ :=
      RowStore.deleteRow_cases hshown hnumbered row
    · rw [hcolumns] at hbefore hr hnarrow
      have hrun := runFrom_delete_of_ok (Session.lt_of_store? hstore) hkey hdelete e.deleter
        e.pending
      rw [state_self hstore] at hrun
      exact .inl ⟨hprimary, hnarrow, before, r, after, hstored, hbefore, hr, hrun⟩
    · refine .inr ⟨exists_delete_error hstore row fun key store' _ hok => ?_, ?_⟩
      · rw [hfail] at hok
        cases hok
      · rintro ⟨-, hnarrow, r, hr, hagrees⟩
        rw [hcolumns] at hnone
        rw [hnone hnarrow r hr] at hagrees
        cases hagrees

/-- The key that a delete keeps is that of the given row. A row store may have come about by any
calls of any parties. Deleting a row from it succeeds exactly if there is a primary key that is not
too wide, and a stored row that has the key of the given one. Then the first of these is taken off,
the key of the given row is kept, and nothing else changes; and this is the key of the row that went
exactly if both rows show the same text in each column of the primary key, as they do if the given
values are of their columns' kinds and come back as they were. If deleting fails, nothing
changes. -/
theorem delete_keeps_given_key {table : String} {partitions : Nat} {empty : RowStore}
    (hcreate : RowStore.create table e.definition.columns partitions = .ok empty)
    (hshown : RowStore.NumbersShown e.definition.columns) (calls : List (P × StoreCall))
    (hstore : s.store? e.store
      = some (runAll StoreCall.runShared calls (empty, fun _ => {})).2.1) (row : Row) :
    let d := e.definition
    let store := (runAll StoreCall.runShared calls (empty, fun _ => {})).2.1
    (((delete row).runFrom (s, e)).1 = .ok ()
        ↔ (∃ c ∈ d.columns, c.primaryKey = true)
          ∧ (RowStore.keyColumns d.columns).length ≤ RowStore.maxKeyColumns
          ∧ ∃ r ∈ store.stored, RowStore.hasKey d.columns row r.cells = true)
      ∧ ((∃ before r after, store.stored = before ++ r :: after
            ∧ (∀ q ∈ before, RowStore.hasKey d.columns row q.cells = false)
            ∧ RowStore.hasKey d.columns row r.cells = true
            ∧ (delete row).runFrom (s, e)
                = (.ok (), s.setStore e.store { store with stored := before ++ after },
                    { e with pending := e.pending ++ [keyTuple d row] })
            ∧ (keyTuple d row = keyTuple d (store.valuesOf r)
                ↔ ∀ (i : Nat) (c : Column), d.columns[i]? = some c → c.primaryKey = true →
                    (row.getD i .null).display = ((store.valuesOf r).getD i .null).display)
            ∧ ((∀ (i : Nat) (c : Column), d.columns[i]? = some c → c.primaryKey = true →
                  c.Returns (row.getD i .null)) →
                keyTuple d row = keyTuple d (store.valuesOf r)))
          ∨ ∃ cause, (delete row).runFrom (s, e) = (.error cause, s, e)) := by
  intro d store
  obtain ⟨-, hcolumns, -⟩ := RowStore.frame_runShared empty (fun _ => {}) calls
  have htraced : RowStore.Traced _ store := (RowStore.Traced.of_create hcreate).runShared _ calls
  have hnames := RowStore.nodup_names_of_create hcreate
  obtain ⟨-, rfl⟩ := RowStore.create_eq_ok.mp hcreate
  replace hcolumns : store.columns = d.columns := hcolumns
  have hshown' : RowStore.NumbersShown store.columns := hcolumns ▸ hshown
  obtain ⟨hprimary, hnarrow, before, r, after, hstored, hbefore, hr, hrun⟩ |
      ⟨⟨cause, hfails⟩, hnot⟩ :=
    delete_first_or_nothing hstore hcolumns hshown' htraced.stored.numbered row
  · have hmem : r ∈ store.stored := hstored ▸ List.mem_append_right _ List.mem_cons_self
    have hsame := keyTuple_eq_iff hnames row (store.valuesOf r)
    refine ⟨iff_of_true ?_ ⟨hprimary, hnarrow, r, hmem, hr⟩,
      .inl ⟨before, r, after, hstored, hbefore, hr, hrun, hsame, fun hreturns => ?_⟩⟩
    · rw [hrun]
    · refine hsame.mpr fun i c hc hprimary => ?_
      rw [htraced.valuesOf_eq_of_hasKey hmem (hcolumns ▸ hr) (hcolumns ▸ hc) hprimary
        (hreturns i c hc hprimary)]
  · refine ⟨iff_of_false ?_ hnot, .inr ⟨cause, hfails⟩⟩
    rw [hfails]
    exact nofun

/-! ### Two products -/

/-- An empty table of products. -/
def noProducts : RowStore where
  name := "product"
  columns := products.columns
  partitionCount := 1
  partitionCount_pos := Nat.one_pos
  stored := []
  savepoints := []

/-- Two products are added, whose keys are the texts of a number and of a truth value. -/
def twoProducts : List (Unit × StoreCall) := [((), .insertAll [[.text "1"], [.text "true"]])]

/-- A session with the table of the two products. -/
def withTwoProducts : Session Unit where
  api := ()
  stores := [(runAll StoreCall.runShared twoProducts (noProducts, fun _ => {})).2.1]

/-- A product that is deleted by its own key is named by it. -/
theorem delete_keeps_given_key_product :
    ∃ s' e', (delete [.text "true"]).runFrom
        (withTwoProducts, { definition := products, store := 0 }) = (.ok (), s', e')
      ∧ e'.pending = [keyTuple products [.text "true"]] := by
  have hcreate : RowStore.create "product" products.columns 1 = .ok noProducts := rfl
  have hshown : RowStore.NumbersShown products.columns := by
    unfold RowStore.NumbersShown
    decide
  obtain ⟨hok, hcases⟩ := delete_keeps_given_key (s := withTwoProducts)
    (e := { definition := products, store := 0 }) hcreate hshown twoProducts rfl [.text "true"]
  obtain ⟨_, _, _, -, -, -, hrun, -, -⟩ | ⟨cause, hfails⟩ := hcases
  · exact ⟨_, _, hrun, rfl⟩
  · rw [hfails] at hok
    exact absurd (hok.mpr (by decide +kernel)) nofun

/-- A truth value takes off the product `1`, and keeps the key of the product `true`. -/
theorem delete_keeps_other_key :
    withTwoProducts.stores.map RowStore.rows = [[[.text "1"], [.text "true"]]]
      ∧ ∃ s' e', (delete [.boolean true]).runFrom
          (withTwoProducts, { definition := products, store := 0 }) = (.ok (), s', e')
      ∧ s'.stores.map RowStore.rows = [[[.text "true"]]]
      ∧ e'.pending = [keyTuple products [.text "true"]]
      ∧ e'.pending ≠ [keyTuple products [.text "1"]] :=
  ⟨by decide +kernel, _, _, rfl, by decide +kernel, by decide +kernel, by decide +kernel⟩

end BulkEditor

end ShopTables
