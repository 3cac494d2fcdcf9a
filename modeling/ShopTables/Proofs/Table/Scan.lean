import ShopTables.Proofs.Api.Recorded
import ShopTables.Proofs.Fallible
import ShopTables.Proofs.RowStore.Layout
import ShopTables.Proofs.RowStore.Numbers
import ShopTables.Proofs.Schema.Conversion
import ShopTables.Table.Handle

/-!
# What a scan reads

Reading a table is one request, and everything else depends on the answer alone: it makes a row
store of the table (`TableDefinition.storeOfAnswer`), which is then the newest of the session and
the one of the handle, or else nothing but the shop has changed (`TableHandle.reading`). So a scan
that succeeds filled a row store of its own with one row for each record, in the order of the
records (`Filled`), and what it gives are the rows of that store (`scan_ok`).
-/

namespace ShopTables

/-- A row store that was filled with rows and not changed since. -/
structure Filled (d : TableDefinition) (partitions : Nat) (rows : List Row) (store : RowStore) :
    Prop where
  name : store.name = d.name
  columns : store.columns = d.columns
  partitionCount : store.partitionCount = max partitions 1
  savepoints : store.savepoints = []
  numbered : RowStore.Numbered store.stored
  cells : store.stored.map (·.cells) = rows.map (RowStore.keep d.columns)
  fits : ∀ row ∈ rows, d.Fits row
  names : (d.columns.map (·.name)).Nodup

/-- Rows that a new store takes are kept one after the other. -/
theorem filled_of_insertAll {d : TableDefinition} {partitions : Nat} {rows : List Row}
    {empty store : RowStore} (hcreate : RowStore.create d.name d.columns partitions = .ok empty)
    (hfits : ∀ row ∈ rows, d.Fits row) (hinsert : empty.insertAll rows = .ok store) :
    Filled d partitions rows store := by
  -- the new store is empty, so that what is added is all there is
  have hnames := RowStore.nodup_names_of_create hcreate
  obtain ⟨-, hempty⟩ := RowStore.create_eq_ok.mp hcreate
  have hname : empty.name = d.name := by rw [hempty]
  have hcolumns : empty.columns = d.columns := by rw [hempty]
  have hcount : empty.partitionCount = max partitions 1 := by rw [hempty]
  have hclosed : empty.savepoints = [] := by rw [hempty]
  have hstored : empty.stored = [] := by rw [hempty]
  rw [RowStore.insertAll_eq empty rows hclosed, hname, hcolumns] at hinsert
  cases hadmitted : rows.mapM (RowStore.admitted d.name d.columns) with
  | error e =>
    rw [hadmitted] at hinsert
    cases hinsert
  | ok added =>
    rw [hadmitted] at hinsert
    have hstore : added.foldl RowStore.push empty = store := Except.ok.inj hinsert
    have hadded : rows.map (RowStore.keep d.columns) = added := by
      rw [← List.forall₂_eq_eq_eq, List.forall₂_map_left_iff]
      exact (forall₂_of_mapM_ok hadmitted).imp fun _ _ h => (RowStore.eq_keep_of_admitted h).symm
    obtain ⟨new, hfold, hcells, hnew⟩ := RowStore.foldl_push empty added
    rw [hstore, hstored, List.nil_append] at hfold
    rw [hstored, List.nil_append] at hnew
    subst hfold
    exact ⟨hname, hcolumns, hcount, hclosed, hnew .nil, hcells.trans hadded.symm, hfits, hnames⟩

/-- The cells of a stored row are those kept of a row that was inserted. -/
theorem Filled.exists_given {d : TableDefinition} {partitions : Nat} {inserted : List Row}
    {store : RowStore} (h : Filled d partitions inserted store) {r : NumberedRow}
    (hr : r ∈ store.stored) : ∃ given, d.Fits given ∧ r.cells = RowStore.keep d.columns given := by
  have hcells : r.cells ∈ inserted.map (RowStore.keep d.columns) :=
    h.cells ▸ List.mem_map_of_mem hr
  obtain ⟨given, hgiven, hkeep⟩ := List.mem_map.mp hcells
  exact ⟨given, h.fits given hgiven, hkeep.symm⟩

/-- The rows that come back are as wide as the table. -/
theorem Filled.length_of_mem_rows {d : TableDefinition} {partitions : Nat} {inserted : List Row}
    {store : RowStore} (h : Filled d partitions inserted store) {row : Row}
    (hrow : row ∈ store.rows) : row.length = d.columns.length := by
  obtain ⟨r, hr, rfl⟩ := RowStore.exists_stored_of_mem_rows hrow
  obtain ⟨given, hgiven, hkeep⟩ := h.exists_given hr
  rw [RowStore.valuesOf, hkeep, h.columns, RowStore.keep, List.length_map, List.length_zip,
    List.length_map, List.length_zip, hgiven.length, Nat.min_self, Nat.min_self]

namespace Session

/-- A store of records comes about by converting each of them, making the table and adding the
rows. -/
theorem storeOf_steps {d : TableDefinition} {partitions : Nat} {records : List (KeyList Json)}
    {store : RowStore} (h : storeOf d partitions records = .ok store) :
    ∃ rows empty, records.mapM d.rowOf = .ok rows
      ∧ RowStore.create d.name d.columns partitions = .ok empty
      ∧ empty.insertAll rows = .ok store := by
  unfold storeOf at h
  cases hrows : records.mapM d.rowOf with
  | error m =>
    rw [hrows] at h
    cases h
  | ok rows =>
    cases hcreate : RowStore.create d.name d.columns partitions with
    | error e =>
      rw [hrows, hcreate] at h
      cases h
    | ok empty =>
      rw [hrows, hcreate] at h
      change (empty.insertAll rows).mapError _ = _ at h
      cases hinsert : empty.insertAll rows with
      | error e =>
        rw [hinsert] at h
        cases h
      | ok filled =>
        rw [hinsert] at h
        obtain rfl := Except.ok.inj h
        exact ⟨rows, empty, rfl, rfl, hinsert⟩

/-- The rows of records fit the table. -/
theorem fits_of_mapM_rowOf {d : TableDefinition} {records : List (KeyList Json)} {rows : List Row}
    (h : records.mapM d.rowOf = .ok rows) : ∀ row ∈ rows, d.Fits row := by
  intro row hrow
  obtain ⟨record, -, hrecord⟩ := exists_of_mem_of_forall₂ (forall₂_of_mapM_ok h) hrow
  exact TableDefinition.fits_of_rowOf hrecord

/-- The store of a table's records has their rows. -/
theorem storeOf_ok {d : TableDefinition} {partitions : Nat} {records : List (KeyList Json)}
    {store : RowStore} (h : storeOf d partitions records = .ok store) :
    ∃ rows, records.mapM d.rowOf = .ok rows ∧ Filled d partitions rows store := by
  obtain ⟨rows, empty, hrows, hcreate, hinsert⟩ := storeOf_steps h
  exact ⟨rows, hrows, filled_of_insertAll hcreate (fits_of_mapM_rowOf hrows) hinsert⟩

/-- Records whose rows the layout admits make a store. -/
theorem exists_storeOf {d : TableDefinition} {partitions : Nat} {records : List (KeyList Json)}
    {rows : List Row} {empty : RowStore} (hrows : records.mapM d.rowOf = .ok rows)
    (hcreate : RowStore.create d.name d.columns partitions = .ok empty)
    (hadmitted : ∀ row ∈ rows, ∃ cells, RowStore.admitted d.name d.columns row = .ok cells) :
    ∃ store, storeOf d partitions records = .ok store := by
  obtain ⟨-, hempty⟩ := RowStore.create_eq_ok.mp hcreate
  have hname : empty.name = d.name := by rw [hempty]
  have hcolumns : empty.columns = d.columns := by rw [hempty]
  have hclosed : empty.savepoints = [] := by rw [hempty]
  obtain ⟨added, hadded⟩ := exists_mapM_ok hadmitted
  have hinsert : empty.insertAll rows = .ok (added.foldl RowStore.push empty) := by
    rw [RowStore.insertAll_eq empty rows hclosed, hname, hcolumns, hadded]
    rfl
  refine ⟨added.foldl RowStore.push empty, ?_⟩
  rw [storeOf, hrows]
  show (RowStore.create d.name d.columns partitions).mapError _ >>= _ = _
  rw [hcreate]
  show (empty.insertAll rows).mapError _ = _
  rw [hinsert]
  rfl

end Session

namespace TableDefinition

/-- The one request by which a table is read. -/
def searchRequest (d : TableDefinition) : Request := ⟨.post, searchPath d.name, none⟩

/-- The row store that an answer of the shop makes of a table. -/
def storeOfAnswer (d : TableDefinition) (partitions : Nat) (answer : Except ApiError (List UInt8)) :
    Except TableError RowStore :=
  match Api.readAnswer SearchAnswer.read? answer with
  | .error e => .error (.api e)
  | .ok found => Session.storeOf d partitions found.records

/-- A row store is made of the records of an answer that can be read. -/
theorem storeOfAnswer_eq_ok {d : TableDefinition} {partitions : Nat}
    {answer : Except ApiError (List UInt8)} {store : RowStore} :
    d.storeOfAnswer partitions answer = .ok store ↔
      ∃ bytes found, answer = .ok bytes ∧ SearchAnswer.read? bytes = some found
        ∧ Session.storeOf d partitions found.records = .ok store := by
  constructor
  · intro h
    cases answer with
    | error e => cases h
    | ok bytes =>
      rw [storeOfAnswer, Api.readAnswer] at h
      cases hread : SearchAnswer.read? bytes with
      | none =>
        rw [hread] at h
        cases h
      | some found =>
        rw [hread] at h
        exact ⟨bytes, found, rfl, hread, h⟩
  · rintro ⟨bytes, found, rfl, hread, hstore⟩
    rw [storeOfAnswer, Api.readAnswer, hread]
    exact hstore

end TableDefinition

/-! ### What reading gives and leaves -/

variable {σ : Type} [Api σ]

namespace Session

/-- The answer to the request for a table. -/
def answer (ctx : Context) (d : TableDefinition) (s : Session σ) : Except ApiError (List UInt8) :=
  ((Api.send ctx d.searchRequest).runFrom s.api).1

/-- The session after the request for a table. -/
def asked (ctx : Context) (d : TableDefinition) (s : Session σ) : Session σ :=
  { s with api := ((Api.send ctx d.searchRequest).runFrom s.api).2 }

/-- Reading a table asks the shop once, and adds the row store that the answer makes. -/
theorem runFrom_materialize (ctx : Context) (d : TableDefinition) (partitions : Nat)
    (s : Session σ) :
    (materialize ctx d partitions).runFrom s =
      match d.storeOfAnswer partitions (s.answer ctx d) with
      | .error e => (.error e, s.asked ctx d)
      | .ok store =>
        (.ok s.stores.length, { s.asked ctx d with stores := s.stores ++ [store] }) := by
  have hcall : (call (Api.postJson ctx (searchPath d.name) none SearchAnswer.read?)).runFrom s
      = ((Api.readAnswer SearchAnswer.read? (s.answer ctx d)).mapError .api, s.asked ctx d) := by
    rw [call, Step.runFrom_within, Step.runFrom_mapError, Api.runFrom_postJson]
    rfl
  rw [materialize, Step.runFrom_bind, hcall, TableDefinition.storeOfAnswer]
  cases Api.readAnswer SearchAnswer.read? (s.answer ctx d) with
  | error e => rfl
  | ok found =>
    show (Step.ofExcept (storeOf d partitions found.records) >>= addStore).runFrom _ = _
    rw [Step.runFrom_bind, Step.runFrom_ofExcept]
    dsimp only
    cases storeOf d partitions found.records with
    | error e => rfl
    | ok store => rfl

/-- A reading that succeeds read an answer of the shop and added one row store. -/
theorem materialize_ok {ctx : Context} {d : TableDefinition} {partitions number : Nat}
    {s s' : Session σ} (h : (materialize ctx d partitions).runFrom s = (.ok number, s')) :
    ∃ bytes answer store, (Api.send ctx ⟨.post, searchPath d.name, none⟩).runFrom s.api
        = (.ok bytes, s'.api)
      ∧ SearchAnswer.read? bytes = some answer
      ∧ storeOf d partitions answer.records = .ok store
      ∧ number = s.stores.length ∧ s'.stores = s.stores ++ [store] := by
  rw [runFrom_materialize] at h
  cases hstore : d.storeOfAnswer partitions (s.answer ctx d) with
  | error e =>
    rw [hstore] at h
    cases h
  | ok store =>
    rw [hstore] at h
    obtain ⟨hnumber, rfl⟩ := Prod.mk.inj h
    obtain ⟨bytes, found, hanswer, hread, hof⟩ := TableDefinition.storeOfAnswer_eq_ok.mp hstore
    exact ⟨bytes, found, store, Prod.ext hanswer rfl, hread, hof, (Except.ok.inj hnumber).symm, rfl⟩

end Session

namespace TableHandle

/-- What reading a table gives and leaves, if `shown` of the new row store is given. -/
def reading {α : Type} (ctx : Context) (shown : RowStore → α) (s : Session σ) (t : TableHandle) :
    Except TableError α × Session σ × TableHandle :=
  match t.definition.storeOfAnswer t.partitionCount (s.answer ctx t.definition) with
  | .error e => (.error e, s.asked ctx t.definition, t)
  | .ok store =>
    (.ok (shown store), { s.asked ctx t.definition with stores := s.stores ++ [store] },
      { t with memory := some s.stores.length })

/-- What reading gives is made of the answer. -/
theorem fst_reading {α : Type} (ctx : Context) (shown : RowStore → α) (s : Session σ)
    (t : TableHandle) :
    (reading ctx shown s t).1
      = (t.definition.storeOfAnswer t.partitionCount (s.answer ctx t.definition)).map shown := by
  rw [reading]
  cases t.definition.storeOfAnswer t.partitionCount (s.answer ctx t.definition) with
  | error e => rfl
  | ok store => rfl

omit [Api σ] in
/-- A handle that was moved to the newest row store shows it. -/
theorem materialized?_newest (t : TableHandle) (api : σ) (stores : List RowStore)
    (store : RowStore) :
    ({ t with memory := some stores.length } : TableHandle).materialized?
      (⟨api, stores ++ [store]⟩ : Session σ) = some store := by
  rw [materialized?, Option.bind_some, Session.store?, List.getElem?_concat_length]

theorem runFrom_partitions (ctx : Context) (s : Session σ) (t : TableHandle) :
    (partitions ctx).runFrom (s, t) = reading ctx RowStore.partitions s t := by
  rw [partitions, Step.runFrom_ofFn]
  dsimp only
  rw [Session.runFrom_materialize, reading]
  cases t.definition.storeOfAnswer t.partitionCount (s.answer ctx t.definition) with
  | error e => rfl
  | ok store =>
    dsimp only
    rw [materialized?_newest]

omit [Api σ] in
theorem runFrom_partitionRows {s : Session σ} {t : TableHandle} {store : RowStore}
    (h : t.materialized? s = some store) (index : Nat) :
    (partitionRows index).runFrom (s, t) = (.ok (store.partitionRows index), s, t) := by
  rw [partitionRows, Step.runFrom_ofFn]
  dsimp only
  rw [h]

theorem runFrom_scan_eq (ctx : Context) (s : Session σ) (t : TableHandle) :
    (scan ctx).runFrom (s, t) = reading ctx RowStore.rows s t := by
  have hparts := runFrom_partitions ctx s t
  have htarget : (target ctx).partitions = partitions (σ := σ) ctx := rfl
  rw [scan, Source.scan, htarget]
  rw [reading] at hparts ⊢
  cases hstore : t.definition.storeOfAnswer t.partitionCount (s.answer ctx t.definition) with
  | error e =>
    rw [hstore] at hparts
    rw [Step.runFrom_bind_of_error hparts]
  | ok store =>
    rw [hstore] at hparts
    have hmemory := materialized?_newest t (s.asked ctx t.definition).api s.stores store
    have hrows := Step.runFrom_mapM (runFrom_partitionRows hmemory) store.partitions
    have hpartitionRows : (target ctx).rows = partitionRows (σ := σ) := rfl
    have hflat : (store.partitions.map store.partitionRows).flatten = store.rows :=
      (List.flatMap_def ..).symm
    rw [Step.runFrom_bind_of_ok hparts, hpartitionRows, Step.runFrom_bind_of_ok hrows,
      Step.runFrom_pure, hflat]

/-- A scan asks the shop for the table and for nothing else. -/
theorem api_scan (ctx : Context) (s : Session σ) (t : TableHandle) :
    ((scan ctx).runFrom (s, t)).2.1.api
      = ((Api.send ctx t.definition.searchRequest).runFrom s.api).2 := by
  rw [runFrom_scan_eq, reading]
  cases t.definition.storeOfAnswer t.partitionCount (s.answer ctx t.definition) with
  | error e => rfl
  | ok store => rfl

/-- A scan succeeds when the shop answers, the answer can be read and the records fit. -/
theorem runFrom_scan (ctx : Context) {s : Session σ} {t : TableHandle} {api : σ}
    {bytes : List UInt8} {answer : SearchAnswer} {store : RowStore}
    (hsend : (Api.send ctx ⟨.post, searchPath t.definition.name, none⟩).runFrom s.api
      = (.ok bytes, api))
    (hread : SearchAnswer.read? bytes = some answer)
    (hstore : Session.storeOf t.definition t.partitionCount answer.records = .ok store) :
    (scan ctx).runFrom (s, t)
      = (.ok store.rows, { api, stores := s.stores ++ [store] },
          { t with memory := some s.stores.length }) := by
  have hanswer : s.answer ctx t.definition = .ok bytes := congrArg Prod.fst hsend
  have hasked : s.asked ctx t.definition = { s with api } := by
    rw [Session.asked, TableDefinition.searchRequest, hsend]
  rw [runFrom_scan_eq, reading,
    TableDefinition.storeOfAnswer_eq_ok.mpr ⟨bytes, answer, hanswer, hread, hstore⟩, hasked]

/-- A scan gives the rows of the row store that it filled. -/
theorem scan_ok {ctx : Context} {s s' : Session σ} {t t' : TableHandle} {rows : List Row}
    (h : (scan ctx).runFrom (s, t) = (.ok rows, s', t')) :
    ∃ bytes answer inserted store,
      (Api.send ctx ⟨.post, searchPath t.definition.name, none⟩).runFrom s.api
        = (.ok bytes, s'.api)
      ∧ SearchAnswer.read? bytes = some answer
      ∧ answer.records.mapM t.definition.rowOf = .ok inserted
      ∧ Filled t.definition t.partitionCount inserted store
      ∧ s'.stores = s.stores ++ [store] ∧ t' = { t with memory := some s.stores.length }
      ∧ rows = store.rows := by
  rw [runFrom_scan_eq, reading] at h
  cases hstore : t.definition.storeOfAnswer t.partitionCount (s.answer ctx t.definition) with
  | error e =>
    rw [hstore] at h
    cases h
  | ok store =>
    rw [hstore] at h
    obtain ⟨hrows, hst⟩ := Prod.mk.inj h
    obtain ⟨rfl, rfl⟩ := Prod.mk.inj hst
    obtain ⟨bytes, found, hanswer, hread, hof⟩ := TableDefinition.storeOfAnswer_eq_ok.mp hstore
    obtain ⟨inserted, hinserted, hfilled⟩ := Session.storeOf_ok hof
    exact ⟨bytes, found, inserted, store, Prod.ext hanswer rfl, hread, hinserted, hfilled, rfl, rfl,
      (Except.ok.inj hrows).symm⟩

end TableHandle

end ShopTables
