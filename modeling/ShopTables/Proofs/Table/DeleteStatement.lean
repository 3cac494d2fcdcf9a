import ShopTables.Proofs.Table.EditorRun
import ShopTables.Proofs.Table.Scan

/-!
# Delete statements over a table of the shop

A delete statement that succeeds scanned the table into a row store of its own, asked the predicate
about each row, deleted the accepted rows from that row store in scan order and sent their keys in
one request, or none if there were none (`deleteMatching_ok`). What it does to the row store and
what the shop receives both follow from this.
-/

namespace ShopTables.TableHandle

variable {τ : Type}

/-- A predicate that may change the shop, of which a state of its own is a part, and nothing
else: neither the requests received nor what was read. -/
def onShop (accept : Row → StateM τ Bool) (row : Row) :
    StateM (Session (Recorded τ) × TableHandle) Bool :=
  fun (s, t) =>
    let (answer, shop) := (accept row).run s.api.shop
    (answer, { s with api := { s.api with shop } }, t)

theorem run_mapM_onShop (accept : Row → StateM τ Bool) (rows : List Row)
    (s : Session (Recorded τ)) (t : TableHandle) :
    (rows.mapM (onShop accept)).run (s, t)
      = (answersFrom accept rows s.api.shop,
          { s with api := { s.api with shop := ((rows.mapM accept).run s.api.shop).2 } }, t) := by
  induction rows generalizing s with
  | nil => rfl
  | cons row rows ih =>
    have hrow : (onShop accept row).run (s, t)
        = (((accept row).run s.api.shop).1,
            { s with api := { s.api with shop := ((accept row).run s.api.shop).2 } }, t) := rfl
    rw [run_mapM_cons, answersFrom_cons, run_mapM_cons, hrow, ih]

theorem answersFrom_onShop (accept : Row → StateM τ Bool) (rows : List Row)
    (s : Session (Recorded τ)) (t : TableHandle) :
    answersFrom (onShop accept) rows (s, t) = answersFrom accept rows s.api.shop := by
  rw [answersFrom, run_mapM_onShop]

/-! ### Running the deleter of a table -/

section

variable {σ : Type}

/-- The session and the editor of a statement. -/
def editorOf : (Session σ × TableHandle) × BulkEditor → Session σ × BulkEditor
  | ((s, _), e) => (s, e)

/-- Puts a session and an editor into a statement. -/
def putEditor : Session σ × BulkEditor → (Session σ × TableHandle) × BulkEditor →
    (Session σ × TableHandle) × BulkEditor
  | (s, e), ((_, t), _) => ((s, t), e)

theorem editorOf_putEditor (x : Session σ × BulkEditor)
    (st : (Session σ × TableHandle) × BulkEditor) : editorOf (putEditor x st) = x := rfl

theorem putEditor_putEditor (x y : Session σ × BulkEditor)
    (st : (Session σ × TableHandle) × BulkEditor) :
    putEditor x (putEditor y st) = putEditor x st := rfl

theorem putEditor_editorOf (st : (Session σ × TableHandle) × BulkEditor) :
    putEditor (editorOf st) st = st := rfl

/-- The deleter of a table is a bulk editor, run beside the handle. -/
theorem runFrom_target_run [Api σ] (ctx : Context) (rows : List Row) (s : Session σ)
    (t : TableHandle) (e : BulkEditor) :
    ((target ctx).deleter.run rows).runFrom ((s, t), e)
      = ((((BulkEditor.calls ctx).run rows).runFrom (s, e)).1,
          (((((BulkEditor.calls ctx).run rows).runFrom (s, e)).2.1, t),
            (((BulkEditor.calls ctx).run rows).runFrom (s, e)).2.2)) := by
  have hdeleter : (target (σ := σ) ctx).deleter
      = (BulkEditor.calls ctx).within editorOf putEditor := rfl
  rw [hdeleter, Deleter.run_within editorOf_putEditor putEditor_putEditor putEditor_editorOf,
    Step.runFrom_within]
  rfl

end

/-! ### Whole statements -/

section

variable {σ : Type} [Api σ]

/-- What sending keys makes of a shop: nothing if there are none, and otherwise what one request
does, which is served. -/
def Synced (ctx : Context) (d : TableDefinition) (keys : List RecordKey) (api api' : σ) : Prop :=
  if keys = [] then api' = api
  else ∃ bytes, (Api.send ctx (BulkEditor.syncRequest d keys)).runFrom api = (.ok bytes, api')

/-- An editor that runs to its end sends the keys it has. -/
theorem synced_of_close_ok {ctx : Context} {s s' : Session σ} {e e' : BulkEditor}
    {store : RowStore} {keys : List RecordKey} (hs : e.store < s.stores.length)
    (h : (BulkEditor.close ctx).runFrom (BulkEditor.state s e store ⟨none⟩ keys)
      = (.ok (), s', e')) :
    s'.stores = s.stores.set e.store store ∧ Synced ctx e.definition keys s.api s'.api := by
  rw [BulkEditor.runFrom_close hs] at h
  by_cases hkeys : keys = []
  · subst hkeys
    rw [BulkEditor.runFrom_flush_nil] at h
    obtain ⟨-, hst⟩ := Prod.mk.inj h
    obtain ⟨rfl, -⟩ := Prod.mk.inj hst
    exact ⟨rfl, by rw [Synced, if_pos rfl]; rfl⟩
  · rw [BulkEditor.runFrom_flush ctx s e store ⟨none⟩ hkeys] at h
    obtain ⟨hresult, hst⟩ := Prod.mk.inj h
    obtain ⟨rfl, -⟩ := Prod.mk.inj hst
    refine ⟨rfl, ?_⟩
    rw [Synced, if_neg hkeys]
    rcases hsend : (Api.send ctx (BulkEditor.syncRequest e.definition keys)).runFrom s.api
      with ⟨r, api⟩
    rw [hsend] at hresult
    cases r with
    | error error => cases hresult
    | ok bytes => exact ⟨bytes, rfl⟩

/-- What a delete statement did that succeeds, if its predicate changes at most the shop. -/
theorem deleteMatching_synced {ctx : Context}
    {accept : Row → StateM (Session σ × TableHandle) Bool}
    (haccept : ∀ (rows : List Row) (s : Session σ) (t : TableHandle),
      ∃ api, ((rows.mapM accept).run (s, t)).2 = ({ s with api }, t))
    {s s' : Session σ} {t t' : TableHandle} {n : Nat}
    (h : (deleteMatching ctx accept).runFrom (s, t) = (.ok n, s', t')) :
    ∃ s₁ t₁ asked inserted store store' chosen keys,
      (scan ctx).runFrom (s, t) = (.ok store.rows, s₁, t₁)
      ∧ ((store.rows.mapM accept).run (s₁, t₁)).2 = ({ s₁ with api := asked }, t₁)
      ∧ Filled t.definition t.partitionCount inserted store
      ∧ t₁.materialized? s₁ = some store
      ∧ chosen = selected store.rows (answersFrom accept store.rows (s₁, t₁))
      ∧ n = chosen.length
      ∧ chosen.mapM (BulkEditor.keyOf? t.definition) = some keys
      ∧ chosen.foldlM RowStore.deleteRow store = .ok store'
      ∧ t'.materialized? s' = some store'
      ∧ Synced ctx t.definition keys asked s'.api := by
  obtain ⟨rows, ⟨s₁, t₁⟩, ⟨s₃, t₃⟩, e, e', hscan, hopen, hrun, hn⟩ := Target.deleteMatching_ok h
  obtain ⟨bytes, answer, inserted, store, hsend, -, -, hfilled, hstores, rfl, rfl⟩ := scan_ok hscan
  obtain ⟨asked, hasked⟩ := haccept store.rows s₁ { t with memory := some s.stores.length }
  generalize hchosen : selected store.rows
    (answersFrom accept store.rows (s₁, { t with memory := some s.stores.length })) = chosen
    at hrun hn
  -- the deleter is opened over the row store just filled, and nothing else has changed
  rw [hasked] at hopen
  obtain ⟨he, hst₃⟩ := Prod.mk.inj hopen
  obtain ⟨rfl, rfl⟩ := Prod.mk.inj hst₃
  obtain rfl := Except.ok.inj he
  rw [runFrom_target_run] at hrun
  obtain ⟨hresult, hst⟩ := Prod.mk.inj hrun
  have hstore : ({ s₁ with api := asked } : Session σ).store? s.stores.length = some store := by
    rw [Session.store?, hstores, List.getElem?_concat_length]
  -- the editor has no statement open, so it runs to its closing
  obtain ⟨cause, _, -, hfail⟩ | ⟨store', keys, _, hfold, hkeys, -, -, hclose⟩ :=
    BulkEditor.run_cases (e := { definition := t.definition, store := s.stores.length }) hstore
      (.idle hfilled.savepoints) ctx chosen
  · rw [hfail] at hresult
    cases hresult
  · rw [hclose] at hresult hst
    rcases hrest : (BulkEditor.close ctx).runFrom (BulkEditor.state { s₁ with api := asked }
      { definition := t.definition, store := s.stores.length } { store' with savepoints := [] }
      ⟨none⟩ keys) with ⟨r, s₄, e₄⟩
    rw [hrest] at hresult hst
    obtain rfl : r = .ok () := hresult
    obtain ⟨hst₄, -⟩ := Prod.mk.inj hst
    obtain ⟨rfl, rfl⟩ := Prod.mk.inj hst₄
    have hlt := Session.lt_of_store? hstore
    obtain ⟨hstores₄, hsynced⟩ := synced_of_close_ok hlt hrest
    have hsame : { store' with savepoints := [] } = store' := by
      obtain ⟨kept, -, rfl⟩ := RowStore.foldlM_deleteRow_frame hfold
      rw [← hfilled.savepoints]
    refine ⟨s₁, _, asked, inserted, store, store', chosen, keys, hscan, hasked, hfilled, ?_,
      hchosen.symm, hn, hkeys, hfold, ?_, hsynced⟩
    · rw [materialized?, Option.bind_some, Session.store?, hstores, List.getElem?_concat_length]
    · rw [materialized?, Option.bind_some, Session.store?, hstores₄, List.getElem?_set_self hlt,
        hsame]

end

/-! ### What a shop receives -/

variable [CancellableApi τ]

/-- A shop to which keys were sent received one request, or none if there were no keys. -/
theorem received_of_synced {ctx : Context} {d : TableDefinition} {keys : List RecordKey}
    {a a' : Recorded τ} (h : Synced ctx d keys a a') :
    a'.received = a.received ++ if keys = [] then [] else [BulkEditor.syncRequest d keys] := by
  unfold Synced at h
  split at h
  · rename_i hkeys
    rw [h, if_pos hkeys, List.append_nil]
  · rename_i hkeys
    obtain ⟨bytes, hsend⟩ := h
    rw [if_neg hkeys]
    exact Recorded.received_of_ok hsend

/-- An editor that runs to its end sends the keys it has, if any, in one request. -/
theorem received_of_close_ok {ctx : Context} {s s' : Session (Recorded τ)} {e e' : BulkEditor}
    {store : RowStore} {keys : List RecordKey} (hs : e.store < s.stores.length)
    (h : (BulkEditor.close ctx).runFrom (BulkEditor.state s e store ⟨none⟩ keys)
      = (.ok (), s', e')) :
    s'.stores = s.stores.set e.store store
      ∧ s'.api.received = s.api.received
          ++ if keys = [] then [] else [BulkEditor.syncRequest e.definition keys] := by
  obtain ⟨hstores, hsynced⟩ := synced_of_close_ok hs h
  exact ⟨hstores, received_of_synced hsynced⟩

/-- What a delete statement did that succeeds. -/
theorem deleteMatching_ok {ctx : Context} {accept : Row → StateM τ Bool}
    {s s' : Session (Recorded τ)} {t t' : TableHandle} {n : Nat}
    (h : (deleteMatching ctx (onShop accept)).runFrom (s, t) = (.ok n, s', t')) :
    ∃ s₁ t₁ inserted store store' chosen keys,
      (scan ctx).runFrom (s, t) = (.ok store.rows, s₁, t₁)
      ∧ Filled t.definition t.partitionCount inserted store
      ∧ t₁.materialized? s₁ = some store
      ∧ chosen = selected store.rows (answersFrom accept store.rows s₁.api.shop)
      ∧ n = chosen.length
      ∧ chosen.mapM (BulkEditor.keyOf? t.definition) = some keys
      ∧ chosen.foldlM RowStore.deleteRow store = .ok store'
      ∧ t'.materialized? s' = some store'
      ∧ s₁.api.received = s.api.received ++ [⟨.post, searchPath t.definition.name, none⟩]
      ∧ s'.api.received = s₁.api.received
          ++ if keys = [] then [] else [BulkEditor.syncRequest t.definition keys] := by
  obtain ⟨s₁, t₁, asked, inserted, store, store', chosen, keys, hscan, hasked, hfilled, hstore,
    hchosen, hn, hkeys, hfold, hstore', hsynced⟩ :=
    deleteMatching_synced (fun rows s t => ⟨_, congrArg Prod.snd (run_mapM_onShop accept rows s t)⟩)
      h
  obtain ⟨bytes, -, -, -, hsend, -⟩ := scan_ok hscan
  rw [answersFrom_onShop] at hchosen
  -- asking leaves what was received as it is
  rw [run_mapM_onShop] at hasked
  have hsame : s₁.api.received = asked.received := congrArg (fun st => st.1.api.received) hasked
  exact ⟨s₁, t₁, inserted, store, store', chosen, keys, hscan, hfilled, hstore, hchosen, hn, hkeys,
    hfold, hstore', Recorded.received_of_ok hsend, hsame ▸ received_of_synced hsynced⟩

/-! ### Shops and handles -/

/-- A session that has read nothing, with a shop that has records of an entity. -/
def offeringOf (entity : String) (records : List (List (String × Json))) :
    Session (Recorded CannedApi) where
  api := ⟨CannedApi.start.withSearch entity (.array (records.map .object)), []⟩

/-- A handle to a table, with two partitions. -/
def handleOf (name : String) (columns : List Column) : TableHandle where
  definition := { name, columns, isMapping := false }
  partitionCount := 2

/-- A shop that has products. -/
def offering (products : List (List (String × Json))) : Session (Recorded CannedApi) :=
  offeringOf "product" products

/-- A handle to a table of products. -/
def productHandle (columns : List Column) : TableHandle := handleOf "product" columns

end ShopTables.TableHandle
