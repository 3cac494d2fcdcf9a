import ShopTables.Proofs.Table.BulkEditor

/-!
# Whole runs of a bulk editor

A run over rows either fails at a delete, and then it is as if it had never begun, or deletes all
of them and is left to its closing (`run_cases`). A failed run sends nothing. Closing fails just
when its one request does, because the statement is cancelled or the shop refuses (`SyncFails`);
then the deletes stay, and are not sent again (`run_undone_or_kept`).
-/

namespace ShopTables.BulkEditor

variable {σ : Type}

/-- No savepoint of a store is open but perhaps the deleter's own; `start` are the rows it goes
back to. -/
inductive Alone (store : RowStore) : LocalDeleter → List NumberedRow → Prop where
  | idle (closed : store.savepoints = []) : Alone store ⟨none⟩ store.stored
  | within {name : String} {start : List NumberedRow}
      (opened : store.savepoints = [⟨name, start⟩]) : Alone store ⟨some name⟩ start

/-- Beginning leaves the deleter with the one savepoint that is open. -/
theorem Alone.begin {store : RowStore} {d : LocalDeleter} {start : List NumberedRow}
    (h : Alone store d start) (ctx : Context) :
    ∃ name, (LocalDeleter.begin ctx).runFrom (store, d)
      = (.ok (), { store with savepoints := [⟨name, start⟩] }, ⟨some name⟩) := by
  cases h with
  | idle closed =>
    refine ⟨LocalDeleter.savepointName ctx, ?_⟩
    rw [LocalDeleter.runFrom_begin_idle, RowStore.openSavepoint, closed]
  | @within name _ opened =>
    refine ⟨name, ?_⟩
    rw [LocalDeleter.runFrom_begin_within, ← opened]

/-- An idle deleter goes back to the rows that are there. -/
theorem Alone.eq_of_idle {store : RowStore} {d : LocalDeleter} {start : List NumberedRow}
    (h : Alone store d start) (hidle : d.savepoint = none) :
    { store with stored := start, savepoints := [] } = store := by
  cases h with
  | idle closed => rw [← closed]
  | within _ => cases hidle

/-- Begins, and deletes rows up to the first that fails. -/
def deletes (ctx : Context) (rows : List Row) : Step TableError (Session σ × BulkEditor) Unit := do
  begin ctx
  rows.forM delete

/-- Begins, deletes all rows and completes. -/
def completed (ctx : Context) (rows : List Row) :
    Step TableError (Session σ × BulkEditor) Unit := do
  deletes ctx rows
  onStore LocalDeleter.release

variable {s : Session σ} {e : BulkEditor} {store : RowStore} {start : List NumberedRow}

/-- How far the deletes of a run come: they go through some of the rows, all of them unless one
fails, and the savepoint goes on keeping the rows of the beginning. -/
theorem deletes_cases (hstore : s.store? e.store = some store)
    (halone : Alone store e.deleter start) (ctx : Context) (rows : List Row) :
    ∃ name done store' keys, done.foldlM RowStore.deleteRow store = .ok store'
      ∧ done.mapM (keyOf? e.definition) = some keys
      ∧ (begin ctx).runFrom (s, e)
          = (.ok (), state s e { store with savepoints := [⟨name, start⟩] } ⟨some name⟩ [])
      ∧ ((rows.forM delete).runFrom
              (state s e { store with savepoints := [⟨name, start⟩] } ⟨some name⟩ [])
            = (.ok (), state s e { store' with savepoints := [⟨name, start⟩] } ⟨some name⟩ keys)
          ∧ done = rows
        ∨ ∃ cause, (rows.forM delete).runFrom
              (state s e { store with savepoints := [⟨name, start⟩] } ⟨some name⟩ [])
            = (.error cause,
                state s e { store' with savepoints := [⟨name, start⟩] } ⟨some name⟩ keys)) := by
  have hs := Session.lt_of_store? hstore
  obtain ⟨name, hopen⟩ := halone.begin ctx
  have hbegin := runFrom_begin (s := s) hs hopen e.pending
  rw [state_self hstore] at hbegin
  obtain ⟨done, store₁, keys, -, hfold, hkeys, hrun⟩ := forM_delete_cases hs rows
    { store with savepoints := [⟨name, start⟩] } ⟨some name⟩ []
  -- the deletes go through below the savepoint just as they would without it
  rw [RowStore.foldlM_deleteRow_withSavepoints] at hfold
  cases hfold' : done.foldlM RowStore.deleteRow store with
  | error cause =>
    rw [hfold'] at hfold
    cases hfold
  | ok store' =>
    rw [hfold'] at hfold
    obtain rfl := Except.ok.inj hfold
    exact ⟨name, done, store', keys, hfold', hkeys, hbegin, hrun⟩

/-- What a run comes to: a delete fails, and the rows are again those of the beginning, or all
rows are deleted and completed, and closing decides. -/
theorem run_cases [Api σ] (hstore : s.store? e.store = some store)
    (halone : Alone store e.deleter start) (ctx : Context) (rows : List Row) :
    (∃ cause st, (deletes ctx rows).runFrom (s, e) = (.error cause, st)
        ∧ ((calls ctx).run rows).runFrom (s, e)
            = (.error cause, state s e { store with stored := start, savepoints := [] } ⟨none⟩ []))
      ∨ ∃ store' keys st, rows.foldlM RowStore.deleteRow store = .ok store'
        ∧ rows.mapM (keyOf? e.definition) = some keys
        ∧ (deletes ctx rows).runFrom (s, e) = (.ok (), st)
        ∧ (completed ctx rows).runFrom (s, e)
            = (.ok (), state s e { store' with savepoints := [] } ⟨none⟩ keys)
        ∧ ((calls ctx).run rows).runFrom (s, e)
            = (close ctx).runFrom (state s e { store' with savepoints := [] } ⟨none⟩ keys) := by
  have hs := Session.lt_of_store? hstore
  obtain ⟨name, done, store', keys, hfold, hkeys, hbegin, ⟨hdeletes, rfl⟩ | ⟨cause, hdeletes⟩⟩ :=
    deletes_cases hstore halone ctx rows
  · have hrun : (deletes ctx done).runFrom (s, e)
        = (.ok (), state s e { store' with savepoints := [⟨name, start⟩] } ⟨some name⟩ keys) :=
      (Step.runFrom_bind_of_ok hbegin).trans hdeletes
    have hcomplete : (onStore LocalDeleter.release).runFrom
          (state s e { store' with savepoints := [⟨name, start⟩] } ⟨some name⟩ keys)
        = (.ok (), state s e { store' with savepoints := [] } ⟨none⟩ keys) :=
      runFrom_onStore_ok hs (LocalDeleter.runFrom_release_within rfl) keys
    exact .inr ⟨store', keys, _, hfold, hkeys, hrun,
      (Step.runFrom_bind_of_ok hrun).trans hcomplete,
      Deleter.run_of_body_ok hbegin ((Step.runFrom_bind_of_ok hdeletes).trans hcomplete)⟩
  · -- a delete failed: the savepoint brings the rows back, and closing finds no keys
    obtain ⟨kept, -, rfl⟩ := RowStore.foldlM_deleteRow_frame hfold
    have hdiscard : discard.runFrom
          (state s e { store with stored := kept, savepoints := [⟨name, start⟩] } ⟨some name⟩ keys)
        = (.ok (), state s e { store with stored := start, savepoints := [] } ⟨none⟩ []) :=
      runFrom_discard hs (LocalDeleter.runFrom_discard_within rfl) keys
    have hclose : (close ctx).runFrom
          (state s e { store with stored := start, savepoints := [] } ⟨none⟩ [])
        = (.ok (), state s e { store with stored := start, savepoints := [] } ⟨none⟩ []) :=
      (runFrom_close hs ctx _ []).trans (runFrom_flush_nil ctx s e _ ⟨none⟩)
    refine .inl ⟨cause, _, (Step.runFrom_bind_of_ok hbegin).trans hdeletes, ?_⟩
    have hbody : ((calls ctx).body rows).runFrom _ = _ := Step.runFrom_bind_of_error hdeletes
    have hrun := Deleter.run_of_body_error (d := calls ctx) hbegin hbody
    have hdiscard' : ((calls ctx).discard cause).runFrom
          (state s e { store with stored := kept, savepoints := [⟨name, start⟩] } ⟨some name⟩ keys)
        = (.ok (), state s e { store with stored := start, savepoints := [] } ⟨none⟩ []) := hdiscard
    rw [hrun, hdiscard']
    exact congrArg (fun result => (Except.error cause, result.2)) hclose

/-! ### What the shop sees -/

variable {τ : Type} [CancellableApi τ] {s : Session (Recorded τ)}

/-- How a request of a statement fails: the statement is cancelled, or the shop answers with an
error. -/
inductive SyncFails (ctx : Context) (shop : τ) (request : Request) : ApiError → Prop where
  | cancelled (h : CancellableApi.isCancelled ctx shop = true) :
      SyncFails ctx shop request .cancelled
  | refused {error : ApiError} (h : CancellableApi.isCancelled ctx shop = false)
      (hanswer : ((Api.send ctx request).runFrom shop).1 = .error error) :
      SyncFails ctx shop request error

/-- A request fails in one of these ways. -/
theorem syncFails_iff {ctx : Context} {shop : τ} {request : Request} {error : ApiError} :
    SyncFails ctx shop request error
      ↔ ((Api.send ctx request).runFrom shop).1 = .error error := by
  constructor
  · rintro (h | ⟨-, hanswer⟩)
    · rw [CancellableApi.send_cancelled ctx request shop h]
    · exact hanswer
  · intro hanswer
    cases h : CancellableApi.isCancelled ctx shop with
    | false => exact .refused h hanswer
    | true =>
      rw [CancellableApi.send_cancelled ctx request shop h] at hanswer
      obtain rfl := Except.error.inj hanswer
      exact .cancelled h

/-- Closing with keys is making one request, which does not arrive if the statement is cancelled. -/
theorem runFrom_close_of_ne_nil (hs : e.store < s.stores.length) (ctx : Context) (store : RowStore)
    {keys : List RecordKey} (hkeys : keys ≠ []) :
    (close ctx).runFrom (state s e store ⟨none⟩ keys)
      = ((((Api.send ctx (syncRequest e.definition keys)).runFrom s.api.shop).1.map
            fun _ => ()).mapError .api,
          state { s with api :=
              ⟨((Api.send ctx (syncRequest e.definition keys)).runFrom s.api.shop).2,
                s.api.received ++ if s.api.isCancelled ctx then []
                  else [syncRequest e.definition keys]⟩ }
            e store ⟨none⟩ []) := by
  rw [runFrom_close hs, runFrom_flush ctx s e store ⟨none⟩ hkeys, Recorded.runFrom_send]

/-- Closing fails only if there are keys and their request fails. -/
theorem syncFails_of_close (hs : e.store < s.stores.length) {ctx : Context} {store : RowStore}
    {keys : List RecordKey} {failure : TableError} {st : Session (Recorded τ) × BulkEditor}
    (h : (close ctx).runFrom (state s e store ⟨none⟩ keys) = (.error failure, st)) :
    keys ≠ [] ∧ ∃ error, failure = .api error
      ∧ SyncFails ctx s.api.shop (syncRequest e.definition keys) error := by
  by_cases hkeys : keys = []
  · subst hkeys
    rw [runFrom_close hs, runFrom_flush_nil] at h
    cases h
  · rw [runFrom_close_of_ne_nil hs ctx store hkeys] at h
    have hresult := congrArg Prod.fst h
    dsimp only at hresult
    cases hanswer : ((Api.send ctx (syncRequest e.definition keys)).runFrom s.api.shop).1 with
    | ok bytes =>
      rw [hanswer] at hresult
      cases hresult
    | error error =>
      rw [hanswer] at hresult
      exact ⟨hkeys, error, (Except.error.inj hresult).symm, syncFails_iff.mpr hanswer⟩

/-- Without keys, closing any number of times does nothing. -/
theorem forM_close_nil (hs : e.store < s.stores.length) (store : RowStore) (ctxs : List Context) :
    (ctxs.forM close).runFrom (state s e store ⟨none⟩ [])
      = (.ok (), state s e store ⟨none⟩ []) := by
  induction ctxs with
  | nil => rfl
  | cons ctx ctxs ih =>
    rw [Step.forM_cons, Step.runFrom_bind_of_ok
      ((runFrom_close hs ctx store []).trans (runFrom_flush_nil ctx s e store ⟨none⟩)), ih]

/-- A run in which a delete fails sends nothing, keeps no key, leaves no savepoint open, and the
rows are those to which the statement goes back; if it was begun by this run, nothing at all has
changed. When all deletes are completed, there is one request to make, which tells the shop to
delete the records of the keys. If it fails, at a shop that may have changed meanwhile and where
the statement may have been cancelled, closing fails with that error, and in no other case; then
the request has arrived once, or not at all for a cancelled statement, the deletes stay, and
nothing is sent when the editor is closed again, whatever becomes of the shop. -/
theorem run_undone_or_kept (hstore : s.store? e.store = some store)
    (halone : Alone store e.deleter start) (ctx : Context) (rows : List Row) :
    (∀ cause st, (deletes ctx rows).runFrom (s, e) = (.error cause, st) →
      ∃ s' e' store', ((calls ctx).run rows).runFrom (s, e) = (.error cause, s', e')
        ∧ s'.api = s.api ∧ e'.pending = [] ∧ e'.deleter.savepoint = none
        ∧ s'.store? e.store = some store' ∧ store'.savepoints = []
        ∧ (∀ i, store'.partitionRows i
            = ({ store with stored := start } : RowStore).partitionRows i)
        ∧ (e.deleter.savepoint = none → s' = s))
    ∧ (∀ s₁ e₁ shop, (completed ctx rows).runFrom (s, e) = (.ok (), s₁, e₁) →
      ∃ keys request store', rows.mapM (keyOf? e.definition) = some keys
        ∧ request.Deletes e.definition.name keys
        ∧ rows.foldlM RowStore.deleteRow store = .ok store'
        ∧ (∀ error, rows ≠ [] → SyncFails ctx shop request error → ∃ s₂ e₂,
          (close ctx).runFrom ({ s₁ with api := { s₁.api with shop } }, e₁)
              = (.error (.api error), s₂, e₂)
            ∧ s₂.api.received = s.api.received
                ++ (if CancellableApi.isCancelled ctx shop then [] else [request])
            ∧ s₂.store? e.store = some { store' with savepoints := [] }
            ∧ e₂.pending = [] ∧ e₂.deleter.savepoint = none
            ∧ (∀ (api : Recorded τ) (ctxs : List Context),
                (ctxs.forM close).runFrom ({ s₂ with api }, e₂) = (.ok (), { s₂ with api }, e₂))
            ∧ (shop = s.api.shop →
                ((calls ctx).run rows).runFrom (s, e) = (.error (.api error), s₂, e₂)))
        ∧ ∀ failure st, (close ctx).runFrom ({ s₁ with api := { s₁.api with shop } }, e₁)
            = (.error failure, st) →
          rows ≠ [] ∧ ∃ error, failure = .api error ∧ SyncFails ctx shop request error) := by
  have hs := Session.lt_of_store? hstore
  obtain ⟨cause', st', hdeletes', hrun⟩
      | ⟨store', keys, st', hfold, hkeys, hdeletes', hcompleted, hrun⟩ :=
    run_cases hstore halone ctx rows
  · constructor
    · intro cause st hdeletes
      rw [hdeletes'] at hdeletes
      obtain rfl := Except.error.inj (Prod.mk.inj hdeletes).1
      refine ⟨_, _, { store with stored := start, savepoints := [] }, hrun, rfl, rfl, rfl,
        Session.store?_setStore hs _, rfl, fun i => rfl, fun hidle => ?_⟩
      rw [halone.eq_of_idle hidle]
      exact Session.setStore_self hstore
    · intro s₁ e₁ shop hcompleted
      rw [completed, Step.runFrom_bind_of_error hdeletes'] at hcompleted
      cases hcompleted
  · constructor
    · intro cause st hdeletes
      rw [hdeletes'] at hdeletes
      cases hdeletes
    · intro s₁ e₁ shop hcompleted'
      rw [hcompleted] at hcompleted'
      obtain ⟨-, hst⟩ := Prod.mk.inj hcompleted'
      obtain ⟨rfl, rfl⟩ := Prod.mk.inj hst
      have hnil : rows = [] ↔ keys = [] := by
        rw [← List.length_eq_zero_iff, ← List.length_eq_zero_iff,
          (forall₂_of_mapM_some hkeys).length_eq]
      refine ⟨keys, syncRequest e.definition keys, store', hkeys,
        deletes_syncRequest e.definition (sorted_of_mapM_keyOf? hkeys), hfold, ?_, ?_⟩
      · intro error hrows hfails
        have hclose := runFrom_close_of_ne_nil (s := { s with api := { s.api with shop } }) hs ctx
          { store' with savepoints := [] } (mt hnil.mpr hrows)
        rw [syncFails_iff.mp hfails] at hclose
        refine ⟨_, _, hclose, rfl, Session.store?_setStore hs _, rfl, rfl,
          fun api => forM_close_nil (s := { s with api }) hs _, ?_⟩
        rintro rfl
        exact hrun.trans hclose
      · intro failure st hclose
        obtain ⟨hsome, hfails⟩ :=
          syncFails_of_close (s := { s with api := { s.api with shop } }) hs hclose
        exact ⟨mt hnil.mp hsome, hfails⟩

/-! ### A table of products -/

/-- A table whose records are known by an identifier. -/
def products : TableDefinition where
  name := "product"
  columns :=
    [{ name := "id", type := .text, nullable := false, primaryKey := true, source := "product",
       comment := none }]
  isMapping := false

/-- A session that has read the product `1`, with a shop that does not carry out changes. -/
def refusing : Session (Recorded CannedApi) where
  api := ⟨({} : CannedApi).fail .post syncPath 500, []⟩
  stores :=
    [{ name := "product", columns := products.columns, partitionCount := 1,
       partitionCount_pos := by decide, stored := [⟨1, [.text "1"]⟩], savepoints := [] }]

/-- Of a product that is there and one that is not, neither is deleted. The product that is there
stays deleted here when the shop refuses, or when the statement is cancelled before it is closed;
the shop has then received one request or none, and none when the editor is closed again. -/
theorem run_undone_or_kept_products :
    let e : BulkEditor := { definition := products, store := 0 }
    (∃ e', ((calls ⟨"q"⟩).run [[.text "1"], [.text "2"]]).runFrom (refusing, e)
        = (.error (.store (.rowNotFound "product")), refusing, e'))
      ∧ (∃ s' e' request after, ((calls ⟨"q"⟩).run [[.text "1"]]).runFrom (refusing, e)
          = (.error (.api (.status .post "/api/_action/sync" 500 "")), s', e')
        ∧ s'.api.received = [request] ∧ request.Deletes "product" [[("id", "1")]]
        ∧ s'.store? 0 = some after ∧ after.size = 0
        ∧ ([⟨"q"⟩, ⟨"q"⟩].forM close).runFrom (s', e') = (.ok (), s', e'))
      ∧ ∃ s₁ e₁ s' e' after, (completed ⟨"q"⟩ [[.text "1"]]).runFrom (refusing, e)
          = (.ok (), s₁, e₁)
        ∧ (close ⟨"q"⟩).runFrom
            ({ s₁ with api := { s₁.api with shop := s₁.api.shop.cancel ⟨"q"⟩ } }, e₁)
          = (.error (.api .cancelled), s', e')
        ∧ s'.api.received = [] ∧ s'.store? 0 = some after ∧ after.size = 0
        ∧ ([⟨"q"⟩, ⟨"q"⟩].forM close).runFrom (s', e') = (.ok (), s', e') := by
  have hundone := (run_undone_or_kept (s := refusing) (e := { definition := products, store := 0 })
    rfl (.idle rfl) ⟨"q"⟩ [[.text "1"], [.text "2"]]).1
  have hkept := (run_undone_or_kept (s := refusing) (e := { definition := products, store := 0 })
    rfl (.idle rfl) ⟨"q"⟩ [[.text "1"]]).2
  have hkey : [[Value.text "1"]].mapM (keyOf? products) = some [[("id", "1")]] := rfl
  have hsize : ∀ store', [[Value.text "1"]].foldlM RowStore.deleteRow
      { name := "product", columns := products.columns, partitionCount := 1,
        partitionCount_pos := by decide, stored := [⟨1, [.text "1"]⟩], savepoints := [] }
        = .ok store' → ({ store' with savepoints := [] } : RowStore).size = 0 := by
    intro store' hfold
    rw [← Except.ok.inj hfold]
    rfl
  refine ⟨?_, ?_, ?_⟩
  · obtain ⟨s', e', _, hrun, -, -, -, -, -, -, hsame⟩ := hundone _ _ rfl
    rw [hsame rfl] at hrun
    exact ⟨e', hrun⟩
  · obtain ⟨keys, request, store', hkeys, hdeletes, hfold, hfails, -⟩ :=
      hkept _ _ refusing.api.shop rfl
    have hrefused : ((Api.send ⟨"q"⟩ request).runFrom refusing.api.shop).1
        = .error (.status .post "/api/_action/sync" 500 "") := by
      obtain ⟨method, path, body⟩ := request
      obtain rfl : method = .post := hdeletes.method
      obtain rfl : path = "/api/_action/sync" := hdeletes.path
      rfl
    obtain ⟨s', e', -, hreceived, hstore, -, -, hagain, hrun⟩ :=
      hfails _ (List.cons_ne_nil _ _) (.refused rfl hrefused)
    obtain rfl := Option.some.inj (hkey.symm.trans hkeys)
    exact ⟨s', e', request, _, hrun rfl, hreceived, hdeletes, hstore, hsize store' hfold,
      hagain s'.api _⟩
  · obtain ⟨keys, request, store', -, -, hfold, hfails, -⟩ :=
      hkept _ _ (refusing.api.shop.cancel ⟨"q"⟩) rfl
    obtain ⟨s', e', hclose, hreceived, hstore, -, -, hagain, -⟩ :=
      hfails _ (List.cons_ne_nil _ _) (.cancelled rfl)
    exact ⟨_, _, s', e', _, rfl, hclose, hreceived, hstore, hsize store' hfold, hagain s'.api _⟩

end ShopTables.BulkEditor
