import Mathlib.Data.List.Infix
import ShopTables.Proofs.Api.BulkOperation
import ShopTables.Proofs.Api.Recorded
import ShopTables.Proofs.RowStore.Deleter
import ShopTables.Proofs.RowStore.Keys
import ShopTables.Proofs.Statement
import ShopTables.Table.BulkEditor

/-!
# The calls of a bulk editor, one by one

An editor works on one row store of the session, through one local deleter, and keeps keys
(`state`). Here is what each of its calls makes of these three, and what becomes of the session:
only flushing reaches the shop, with one request at most, and what it finds to send it lets go.
-/

namespace ShopTables

namespace Session

variable {σ : Type} {s : Session σ} {number : Nat}

theorem store?_setStore (h : number < s.stores.length) (store : RowStore) :
    (s.setStore number store).store? number = some store := by
  rw [store?, setStore, List.getElem?_set_self h]

theorem setStore_setStore (s : Session σ) (number : Nat) (store store' : RowStore) :
    (s.setStore number store).setStore number store' = s.setStore number store' := by
  rw [setStore, setStore, setStore, List.set_set]

theorem setStore_self {store : RowStore} (h : s.store? number = some store) :
    s.setStore number store = s := by
  obtain ⟨hlt, hget⟩ := List.getElem?_eq_some_iff.mp h
  rw [setStore, ← hget, List.set_getElem_self]

theorem lt_of_store? {store : RowStore} (h : s.store? number = some store) :
    number < s.stores.length :=
  (List.getElem?_eq_some_iff.mp h).1

end Session

namespace BulkEditor

variable {σ : Type} {s : Session σ} {e : BulkEditor} {store : RowStore} {d : LocalDeleter}
  {keys : List RecordKey}

/-- A session and an editor in it, with this row store, local deleter and keys. -/
def state (s : Session σ) (e : BulkEditor) (store : RowStore) (deleter : LocalDeleter)
    (pending : List RecordKey) : Session σ × BulkEditor :=
  (s.setStore e.store store, { e with deleter, pending })

theorem state_self (h : s.store? e.store = some store) :
    state s e store e.deleter e.pending = (s, e) := by
  rw [state, Session.setStore_self h]

/-! ### The row store -/

theorem runFrom_onStore (hs : e.store < s.stores.length)
    (x : Step StoreError (RowStore × LocalDeleter) Unit) (store : RowStore) (d : LocalDeleter)
    (keys : List RecordKey) :
    (onStore x).runFrom (state s e store d keys)
      = ((x.runFrom (store, d)).1.mapError .store,
          state s e (x.runFrom (store, d)).2.1 (x.runFrom (store, d)).2.2 keys) := by
  rw [onStore, Step.runFrom_ofFn, state]
  dsimp only
  rw [Session.store?_setStore hs]
  dsimp only
  rw [Session.setStore_setStore]
  rfl

theorem runFrom_onStore_ok (hs : e.store < s.stores.length)
    {x : Step StoreError (RowStore × LocalDeleter) Unit} {store' : RowStore} {d' : LocalDeleter}
    (hx : x.runFrom (store, d) = (.ok (), store', d')) (keys : List RecordKey) :
    (onStore x).runFrom (state s e store d keys) = (.ok (), state s e store' d' keys) := by
  rw [runFrom_onStore hs, hx]
  rfl

theorem runFrom_modifyPending (f : List RecordKey → List RecordKey) (store : RowStore)
    (d : LocalDeleter) (keys : List RecordKey) :
    (modifyPending f).runFrom (state s e store d keys) = (.ok (), state s e store d (f keys)) := rfl

/-! ### Beginning and discarding -/

theorem runFrom_begin (hs : e.store < s.stores.length) {ctx : Context} {store' : RowStore}
    {d' : LocalDeleter}
    (hbegin : (LocalDeleter.begin ctx).runFrom (store, d) = (.ok (), store', d'))
    (keys : List RecordKey) :
    (begin ctx).runFrom (state s e store d keys) = (.ok (), state s e store' d' []) := by
  rw [begin, Step.runFrom_bind_of_ok (runFrom_modifyPending _ store d keys),
    runFrom_onStore_ok hs hbegin]

theorem runFrom_discard (hs : e.store < s.stores.length) {store' : RowStore} {d' : LocalDeleter}
    (hdiscard : LocalDeleter.discard.runFrom (store, d) = (.ok (), store', d'))
    (keys : List RecordKey) :
    discard.runFrom (state s e store d keys) = (.ok (), state s e store' d' []) := by
  rw [discard, Step.runFrom_bind_of_ok (runFrom_modifyPending _ store d keys),
    runFrom_onStore_ok hs hdiscard]

/-! ### Deleting -/

theorem runFrom_keyOf {row : Row} {key : RecordKey} (hkey : keyOf? e.definition row = some key)
    (store : RowStore) (d : LocalDeleter) (keys : List RecordKey) :
    (keyOf row).runFrom (state s e store d keys) = (.ok key, state s e store d keys) := by
  rw [keyOf, Step.runFrom_ofFn, state]
  dsimp only
  rw [hkey]

theorem runFrom_delete_of_ok (hs : e.store < s.stores.length) {row : Row} {key : RecordKey}
    {store' : RowStore} (hkey : keyOf? e.definition row = some key)
    (hrow : store.deleteRow row = .ok store') (d : LocalDeleter) (keys : List RecordKey) :
    (delete row).runFrom (state s e store d keys)
      = (.ok (), state s e store' d (keys ++ [key])) := by
  rw [delete, Step.runFrom_bind_of_ok (runFrom_keyOf hkey store d keys),
    Step.runFrom_bind_of_ok (runFrom_onStore_ok hs (LocalDeleter.runFrom_delete_ok hrow d) keys),
    runFrom_modifyPending]

/-- A delete takes a row off the store and keeps its key, or fails and changes nothing. -/
theorem delete_cases (hs : e.store < s.stores.length) (row : Row) (store : RowStore)
    (d : LocalDeleter) (keys : List RecordKey) :
    (∃ key store', keyOf? e.definition row = some key ∧ store.deleteRow row = .ok store'
        ∧ (delete row).runFrom (state s e store d keys)
            = (.ok (), state s e store' d (keys ++ [key])))
      ∨ ∃ cause, (delete row).runFrom (state s e store d keys)
          = (.error cause, state s e store d keys) := by
  cases hkey : keyOf? e.definition row with
  | none =>
    have hfail : (keyOf row).runFrom (state s e store d keys)
        = (.error (.missingPrimaryKey e.definition.name), state s e store d keys) := by
      rw [keyOf, Step.runFrom_ofFn, state]
      dsimp only
      rw [hkey]
    exact .inr ⟨_, Step.runFrom_bind_of_error hfail⟩
  | some key =>
    cases hrow : store.deleteRow row with
    | error cause =>
      refine .inr ⟨.store cause, ?_⟩
      rw [delete, Step.runFrom_bind_of_ok (runFrom_keyOf hkey store d keys), Step.runFrom_bind,
        runFrom_onStore hs, LocalDeleter.runFrom_delete_error hrow]
      rfl
    | ok store' => exact .inl ⟨key, store', rfl, rfl, runFrom_delete_of_ok hs hkey hrow d keys⟩

/-- Deletes go through the rows up to the first that fails: the rows before it are gone from the
store and their keys kept, in order. -/
theorem forM_delete_cases (hs : e.store < s.stores.length) (rows : List Row) (store : RowStore)
    (d : LocalDeleter) (keys : List RecordKey) :
    ∃ done store' new, done <+: rows ∧ done.foldlM RowStore.deleteRow store = .ok store'
      ∧ done.mapM (keyOf? e.definition) = some new
      ∧ ((rows.forM delete).runFrom (state s e store d keys)
            = (.ok (), state s e store' d (keys ++ new)) ∧ done = rows
          ∨ ∃ cause, (rows.forM delete).runFrom (state s e store d keys)
            = (.error cause, state s e store' d (keys ++ new))) := by
  -- on the rows still to come; the store and the keys are those left by the rows before
  induction rows generalizing store keys with
  | nil =>
    refine ⟨[], store, [], List.nil_prefix, rfl, rfl, .inl ⟨?_, rfl⟩⟩
    rw [Step.runFrom_forM_nil, List.append_nil]
  | cons row rows ih =>
    rw [Step.forM_cons]
    obtain ⟨key, store₁, hkey, hrow, hrun⟩ | ⟨cause, hrun⟩ := delete_cases hs row store d keys
    · obtain ⟨done, store', new, hdone, hfold, hnew, hrest⟩ := ih store₁ (keys ++ [key])
      have hassoc : keys ++ [key] ++ new = keys ++ key :: new := by simp
      rw [Step.runFrom_bind_of_ok hrun]
      refine ⟨row :: done, store', key :: new, (List.prefix_cons_inj row).mpr hdone, ?_, ?_, ?_⟩
      · rw [List.foldlM_cons, hrow]
        exact hfold
      · rw [List.mapM_cons, hkey, hnew]
        rfl
      · rw [← hassoc]
        exact hrest.imp (fun h => ⟨h.1, by rw [h.2]⟩) id
    · refine ⟨[], store, [], List.nil_prefix, rfl, rfl, .inr ⟨cause, ?_⟩⟩
      rw [Step.runFrom_bind_of_error hrun, List.append_nil]

/-! ### Flushing and closing -/

/-- The document that deletes records of these keys. -/
def syncDocument (d : TableDefinition) (keys : List RecordKey) : Json :=
  (BulkOperation.delete d keys).request

/-- The request that deletes records of these keys. -/
def syncRequest (d : TableDefinition) (keys : List RecordKey) : Request :=
  ⟨.post, syncPath, some (syncDocument d keys).bytes⟩

/-- The body of a request for keys in order, read back. -/
theorem document?_syncRequest (d : TableDefinition) {keys : List RecordKey}
    (h : ∀ key ∈ keys, KeyList.Sorted key) :
    (syncRequest d keys).document? = some (.object [("delete-" ++ d.apiName, .object
      [("action", .string "delete"), ("entity", .string d.apiName),
        ("payload", .array (keys.map BulkOperation.keyJson))])]) :=
  BulkOperation.read?_delete d h

/-- The request tells the shop to delete the records of the keys. -/
theorem deletes_syncRequest (d : TableDefinition) {keys : List RecordKey}
    (h : ∀ key ∈ keys, KeyList.Sorted key) : (syncRequest d keys).Deletes d.name keys where
  method := rfl
  path := rfl
  document := BulkOperation.deletesRecords_delete d h

/-- The keys that are kept of rows are in order. -/
theorem sorted_of_mapM_keyOf? {d : TableDefinition} {rows : List Row} {keys : List RecordKey}
    (h : rows.mapM (keyOf? d) = some keys) : ∀ key ∈ keys, KeyList.Sorted key := by
  intro key hkey
  obtain ⟨row, -, hrow⟩ := exists_of_mem_of_forall₂ (forall₂_of_mapM_some h) hkey
  unfold keyOf? at hrow
  split_ifs at hrow
  rw [← Option.some.inj hrow]
  exact KeyList.sorted_ofList _

variable [Api σ]

theorem runFrom_flush_nil (ctx : Context) (s : Session σ) (e : BulkEditor) (store : RowStore)
    (d : LocalDeleter) :
    (flush ctx).runFrom (state s e store d []) = (.ok (), state s e store d []) := rfl

/-- Flushing makes one request and lets the keys go, whatever the answer. -/
theorem flush_of_ne_nil (ctx : Context) (s : Session σ) {e : BulkEditor} (hkeys : e.pending ≠ []) :
    (flush ctx).runFrom (s, e)
      = ((((Api.send ctx (syncRequest e.definition e.pending)).runFrom s.api).1.map
            fun _ => ()).mapError .api,
          { s with api := ((Api.send ctx (syncRequest e.definition e.pending)).runFrom s.api).2 },
          { e with pending := [] }) := by
  rw [flush, Step.runFrom_ofFn]
  dsimp only
  rw [if_neg (by simpa using hkeys), Session.call, Step.runFrom_within, Step.runFrom_mapError,
    Api.runFrom_postUnit]
  rfl

theorem runFrom_flush (ctx : Context) (s : Session σ) (e : BulkEditor) (store : RowStore)
    (d : LocalDeleter) (hkeys : keys ≠ []) :
    (flush ctx).runFrom (state s e store d keys)
      = ((((Api.send ctx (syncRequest e.definition keys)).runFrom s.api).1.map
            fun _ => ()).mapError .api,
          state { s with api := ((Api.send ctx (syncRequest e.definition keys)).runFrom s.api).2 }
            e store d []) :=
  flush_of_ne_nil ctx _ hkeys

/-- Flushing changes nothing but the shop and the keys. -/
theorem flush_cases (ctx : Context) (s : Session σ) (e : BulkEditor) (store : RowStore)
    (d : LocalDeleter) (keys : List RecordKey) :
    ∃ sent api, (flush ctx).runFrom (state s e store d keys)
      = (sent, state { s with api } e store d []) := by
  by_cases hkeys : keys = []
  · subst hkeys
    exact ⟨.ok (), s.api, runFrom_flush_nil ctx s e store d⟩
  · exact ⟨_, _, runFrom_flush ctx s e store d hkeys⟩

/-- Closing without a savepoint is flushing. -/
theorem runFrom_close (hs : e.store < s.stores.length) (ctx : Context) (store : RowStore)
    (keys : List RecordKey) :
    (close ctx).runFrom (state s e store ⟨none⟩ keys)
      = (flush ctx).runFrom (state s e store ⟨none⟩ keys) := by
  -- the savepoint is released whatever came of flushing, and here none is open
  obtain ⟨sent, api, hflush⟩ := flush_cases ctx s e store ⟨none⟩ keys
  have hsent : (flush ctx).attempt.runFrom (state s e store ⟨none⟩ keys)
      = (.ok sent, state { s with api } e store ⟨none⟩ []) := by
    rw [Step.runFrom_attempt, hflush]
  have hclosed : (onStore LocalDeleter.release).attempt.runFrom
        (state { s with api } e store ⟨none⟩ [])
      = (.ok (.ok ()), state { s with api } e store ⟨none⟩ []) := by
    rw [Step.runFrom_attempt,
      runFrom_onStore_ok (s := { s with api }) hs (LocalDeleter.runFrom_release_idle store) []]
  rw [close, Step.runFrom_bind_of_ok hsent, Step.runFrom_bind_of_ok hclosed, hflush]
  cases sent with
  | ok _ => rfl
  | error cause => rfl

end BulkEditor

end ShopTables
