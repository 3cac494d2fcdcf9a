import ShopTables.Proofs.Table.Scan

/-!
# Which answers make a row store

An answer of the shop makes a row store of a table just when it can be read, each of its records
converts, the table can be made, and no cell is empty that must not be (`TableDefinition.Accepts`,
`exists_storeOfAnswer`, `accepts_of_storeOfAnswer`).
-/

namespace ShopTables.TableDefinition

/-- An answer has records that become these rows, one each and in their order, the table can be
made, and no cell is empty that must not be. -/
structure Accepts (d : TableDefinition) (answer : Except ApiError (List UInt8)) (rows : List Row) :
    Prop where
  converted : ∃ bytes found, answer = .ok bytes ∧ SearchAnswer.read? bytes = some found
    ∧ List.Forall₂ (fun record row => d.rowOf record = .ok row) found.records rows
  created : RowStore.fault? d.name d.columns = none
  complete : ∀ row ∈ rows, ∀ p ∈ d.columns.zip (RowStore.keep d.columns row),
    p.1.nullable = false → p.2.isNull = false

variable {d : TableDefinition} {partitions : Nat} {answer : Except ApiError (List UInt8)}

/-- A row that fits is admitted just when no cell is empty that must not be. -/
theorem admitted_iff {row : Row} (hfits : d.Fits row) :
    (∃ cells, RowStore.admitted d.name d.columns row = .ok cells)
      ↔ ∀ p ∈ d.columns.zip (RowStore.keep d.columns row),
          p.1.nullable = false → p.2.isNull = false := by
  have hfind : (d.columns.zip (RowStore.keep d.columns row)).find?
        (fun p => !p.1.nullable && p.2.isNull) = none
      ↔ ∀ p ∈ d.columns.zip (RowStore.keep d.columns row),
          p.1.nullable = false → p.2.isNull = false := by
    simp [List.find?_eq_none]
  rw [RowStore.admitted]
  split_ifs with hempty hwidth
  · rw [List.isEmpty_iff.mp hempty]
    simp
  · exact absurd hfits.length hwidth
  · rw [← hfind]
    cases (d.columns.zip (RowStore.keep d.columns row)).find?
        fun p => !p.1.nullable && p.2.isNull with
    | none => simp
    | some p => simp

/-- An answer that is accepted makes a row store that has the rows. -/
theorem exists_storeOfAnswer {rows : List Row} (h : d.Accepts answer rows) (partitions : Nat) :
    ∃ store, d.storeOfAnswer partitions answer = .ok store ∧ Filled d partitions rows store := by
  obtain ⟨⟨bytes, found, rfl, hread, hrows⟩, hcreated, hcomplete⟩ := h
  have hrecords : found.records.mapM d.rowOf = .ok rows := mapM_ok_of_forall₂ hrows
  obtain ⟨store, hstore⟩ : ∃ store, Session.storeOf d partitions found.records = .ok store :=
    Session.exists_storeOf hrecords (RowStore.create_eq_ok.mpr ⟨hcreated, rfl⟩) fun row hrow =>
      (admitted_iff (Session.fits_of_mapM_rowOf hrecords row hrow)).mpr (hcomplete row hrow)
  obtain ⟨rows', hrows', hfilled⟩ := Session.storeOf_ok hstore
  rw [hrecords] at hrows'
  obtain rfl := Except.ok.inj hrows'
  exact ⟨store, storeOfAnswer_eq_ok.mpr ⟨bytes, found, rfl, hread, hstore⟩, hfilled⟩

/-- Only an answer that is accepted makes a row store. -/
theorem accepts_of_storeOfAnswer {store : RowStore}
    (h : d.storeOfAnswer partitions answer = .ok store) : ∃ rows, d.Accepts answer rows := by
  obtain ⟨bytes, found, rfl, hread, hof⟩ := storeOfAnswer_eq_ok.mp h
  obtain ⟨rows, empty, hrows, hcreate, hinsert⟩ := Session.storeOf_steps hof
  obtain ⟨hcreated, rfl⟩ := RowStore.create_eq_ok.mp hcreate
  refine ⟨rows, ⟨bytes, found, rfl, hread, forall₂_of_mapM_ok hrows⟩, hcreated, ?_⟩
  intro row hrow
  rw [← admitted_iff (Session.fits_of_mapM_rowOf hrows row hrow)]
  -- rows are added all or none, so each of them was admitted
  rw [RowStore.insertAll_eq _ rows rfl] at hinsert
  cases hadmitted : rows.mapM (RowStore.admitted d.name d.columns) with
  | error e =>
    rw [hadmitted] at hinsert
    cases hinsert
  | ok added =>
    obtain ⟨cells, -, hcells⟩ := exists_of_mem_of_forall₂ (forall₂_of_mapM_ok hadmitted).flip hrow
    exact ⟨cells, hcells⟩

end ShopTables.TableDefinition
