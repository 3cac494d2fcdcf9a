import ShopTables.Proofs.RowStore.Snapshot
import ShopTables.Proofs.Table.SyncRequest

/-!
# What a bulk editor sends over its whole life

```
    Session × BulkEditor  --EditorEvent.run-->  Session × BulkEditor
             |                                           |
          Agrees                                      Agrees
             |                                           |
          Ledger           --Ledger.after-->          Ledger
```

A ledger has, of every delete that succeeded, the number of its call and the key of its row, and
moves them as the calls go on: they wait until a close sends or loses them, until discarding takes
the deletes back, or until they are dropped. Whatever calls are made of an editor, in any order and
whatever else happens between them, the keys it keeps are those that wait, and the requests it makes
are the batches that were sent (`Agrees.call`, `Agrees.runAll`). Each key goes one way only
(`perm_ofCalls`), so it leaves the editor once at most (`runAll_sends`).
-/

namespace ShopTables

/-- A call that an editor takes. -/
inductive EditorCall where
  | begin
  | delete (row : Row)
  | discard (cause : TableError)
  | complete
  | close

/-- Makes a call for a statement. -/
def EditorCall.run {σ : Type} [Api σ] (ctx : Context) :
    EditorCall → Step TableError (Session σ × BulkEditor) Unit
  | .begin => (BulkEditor.calls ctx).begin
  | .delete row => (BulkEditor.calls ctx).delete row
  | .discard cause => (BulkEditor.calls ctx).discard cause
  | .complete => (BulkEditor.calls ctx).complete
  | .close => (BulkEditor.calls ctx).close

/-- A call for a statement, and what happens to the shop and to the row stores before it. -/
structure EditorEvent (τ : Type) where
  ctx : Context
  call : EditorCall
  shop : τ → τ := id
  stores : List RowStore → List RowStore := id

/-- A call and how it went. -/
structure ObservedCall where
  call : EditorCall
  /-- Was its statement cancelled? -/
  cancelled : Bool
  /-- Did the editor have a savepoint open before? -/
  within : Bool
  succeeded : Bool

namespace EditorEvent

variable {τ : Type}

/-- The session in which the call is made. -/
def before (v : EditorEvent τ) (s : Session (Recorded τ)) : Session (Recorded τ) where
  api := { s.api with shop := v.shop s.api.shop }
  stores := v.stores s.stores

variable [CancellableApi τ]

/-- What a call gives, and what it leaves. -/
def outcome (v : EditorEvent τ) (s : Session (Recorded τ)) (e : BulkEditor) :
    Except TableError Unit × Session (Recorded τ) × BulkEditor :=
  (v.call.run v.ctx).runFrom (v.before s, e)

def run (v : EditorEvent τ) : Session (Recorded τ) × BulkEditor →
    ObservedCall × Session (Recorded τ) × BulkEditor
  | (s, e) =>
    (⟨v.call, (v.before s).api.isCancelled v.ctx, e.deleter.savepoint.isSome,
        (v.outcome s e).1.isOk⟩, (v.outcome s e).2)

end EditorEvent

/-- The key of a row that was deleted, and the number of the call that did it. -/
structure KeptKey where
  call : Nat
  key : RecordKey
  deriving DecidableEq

/-- Where the keys of deleted rows have gone. -/
structure Ledger where
  /-- How many calls were made. -/
  calls : Nat := 0
  /-- Neither sent nor let go. -/
  waiting : List KeptKey := []
  /-- The batches that were sent. -/
  sent : List (List KeptKey) := []
  /-- The batches that cancelled statements were to send. -/
  lost : List (List KeptKey) := []
  /-- Let go when a savepoint was discarded. -/
  takenBack : List KeptKey := []
  /-- Let go by beginning, or by discarding when no savepoint was open. -/
  dropped : List KeptKey := []

namespace BulkEditor

/-- The name of each column of the primary key, with the text of its cell in a row. -/
def keyTuple (d : TableDefinition) (row : Row) : RecordKey :=
  KeyList.ofList ((d.columns.zipIdx.filter (·.1.primaryKey)).map fun (c, i) =>
    (c.name, (row.getD i .null).display))

/-- The key that is kept of a row is its key tuple. -/
theorem eq_keyTuple_of_keyOf? {d : TableDefinition} {row : Row} {key : RecordKey}
    (h : keyOf? d row = some key) : key = keyTuple d row := by
  have hplaces : d.primaryKeyOrdinals = (d.columns.zipIdx.filter (·.1.primaryKey)).map (·.2) :=
    RowStore.primaryPlaces_eq _
  have htexts : (d.primaryKeyOrdinals.filterMap fun i =>
        (d.columns[i]?).map fun c => (c.name, ((row[i]?).map Value.display).getD ""))
      = (d.columns.zipIdx.filter (·.1.primaryKey)).map fun (c, i) =>
          (c.name, (row.getD i .null).display) := by
    rw [hplaces, List.filterMap_map, ← List.filterMap_eq_map']
    refine List.filterMap_congr fun p hp => ?_
    have hcolumn : d.columns[p.2]? = some p.1 :=
      List.mem_zipIdx_iff_getElem?.mp (List.mem_of_mem_filter hp)
    rw [Function.comp_apply, hcolumn, Option.map_some]
    dsimp only
    rw [List.getD_eq_getElem?_getD]
    cases row[p.2]? with
    | none => rfl
    | some v => rfl
  unfold keyOf? at h
  split_ifs at h
  rw [keyTuple, ← htexts]
  exact (Option.some.inj h).symm

theorem sorted_keyTuple (d : TableDefinition) (row : Row) : KeyList.Sorted (keyTuple d row) :=
  KeyList.sorted_ofList _

end BulkEditor

open BulkEditor (keyTuple syncRequest)

namespace Ledger

/-- Lets go of what waits. -/
def drop (l : Ledger) : Ledger := { l with waiting := [], dropped := l.dropped ++ l.waiting }

/-- Lets go of what waits, with its deletes if a savepoint is open. -/
def discard (l : Ledger) (within : Bool) : Ledger :=
  if within then { l with waiting := [], takenBack := l.takenBack ++ l.waiting } else l.drop

/-- Sends what waits, unless there is nothing to send or the statement is cancelled. -/
def flush (l : Ledger) (cancelled : Bool) : Ledger :=
  if l.waiting = [] then l
  else if cancelled then { l with waiting := [], lost := l.lost ++ [l.waiting] }
  else { l with waiting := [], sent := l.sent ++ [l.waiting] }

/-- Where the keys go with one call. -/
def move (d : TableDefinition) (l : Ledger) (o : ObservedCall) : Ledger :=
  match o.call with
  | .begin => l.drop
  | .delete row =>
    if o.succeeded then { l with waiting := l.waiting ++ [⟨l.calls, keyTuple d row⟩] } else l
  | .discard _ => l.discard o.within
  | .complete => l
  | .close => l.flush o.cancelled

/-- Where the keys are after one more call. -/
def after (d : TableDefinition) (l : Ledger) (o : ObservedCall) : Ledger :=
  { l.move d o with calls := l.calls + 1 }

/-- Where the keys are after these calls. -/
def ofCalls (d : TableDefinition) (observed : List ObservedCall) : Ledger :=
  observed.foldl (after d) {}

/-- The request that sends a batch. -/
def requestOf (d : TableDefinition) (batch : List KeptKey) : Request :=
  syncRequest d (batch.map (·.key))

/-- An editor keeps the keys that wait, and made the requests of the batches that were sent after
those of `earlier`. -/
structure Agrees {τ : Type} (d : TableDefinition) (earlier : List Request) (l : Ledger)
    (st : Session (Recorded τ) × BulkEditor) : Prop where
  definition : st.2.definition = d
  pending : st.2.pending = l.waiting.map (·.key)
  received : st.1.api.received = earlier ++ l.sent.map (requestOf d)

end Ledger

/-! ### What each call does to the keys and to the shop -/

namespace BulkEditor

section

variable {σ : Type}

theorem onStore_frame (x : Step StoreError (RowStore × LocalDeleter) Unit) (s : Session σ)
    (e : BulkEditor) :
    ∃ stores deleter, ((onStore x).runFrom (s, e)).2 = ({ s with stores }, { e with deleter }) := by
  rw [onStore, Step.runFrom_ofFn]
  dsimp only
  cases s.store? e.store with
  | none => exact ⟨s.stores, e.deleter, rfl⟩
  | some store => exact ⟨_, _, rfl⟩

/-- Beginning and discarding let the keys go. -/
theorem clear_frame (x : Step StoreError (RowStore × LocalDeleter) Unit) (s : Session σ)
    (e : BulkEditor) :
    ∃ stores deleter, ((modifyPending (fun _ => []) >>= fun _ => onStore x).runFrom (s, e)).2
      = ({ s with stores }, { e with deleter, pending := [] }) := by
  have hclear : (modifyPending fun _ => []).runFrom (s, e) = (.ok (), s, { e with pending := [] }) :=
    rfl
  rw [Step.runFrom_bind_of_ok hclear]
  exact onStore_frame x s { e with pending := [] }

/-- A delete keeps the key of the row if it succeeds. -/
theorem delete_frame (row : Row) (s : Session σ) (e : BulkEditor) :
    ∃ stores deleter, ((delete row).runFrom (s, e)).2
      = ({ s with stores }, { e with
          deleter,
          pending := if ((delete row).runFrom (s, e)).1.isOk
            then e.pending ++ [keyTuple e.definition row] else e.pending }) := by
  cases hkey : keyOf? e.definition row with
  | none =>
    have hfail : (keyOf row).runFrom (s, e)
        = (.error (.missingPrimaryKey e.definition.name), s, e) := by
      rw [keyOf, Step.runFrom_ofFn]
      dsimp only
      rw [hkey]
    rw [delete, Step.runFrom_bind_of_error hfail]
    exact ⟨s.stores, e.deleter, rfl⟩
  | some key =>
    have hok : (keyOf row).runFrom (s, e) = (.ok key, s, e) := by
      rw [keyOf, Step.runFrom_ofFn]
      dsimp only
      rw [hkey]
    obtain rfl := eq_keyTuple_of_keyOf? hkey
    obtain ⟨stores, deleter, hrest⟩ := onStore_frame (LocalDeleter.delete row) s e
    rw [delete, Step.runFrom_bind_of_ok hok]
    rcases hrun : (onStore (LocalDeleter.delete row)).runFrom (s, e) with ⟨result, st⟩
    rw [hrun] at hrest
    obtain rfl : st = _ := hrest
    cases result with
    | error cause =>
      rw [Step.runFrom_bind_of_error hrun]
      exact ⟨stores, deleter, rfl⟩
    | ok _ =>
      rw [Step.runFrom_bind_of_ok hrun]
      exact ⟨stores, deleter, rfl⟩

/-- Closing flushes, and then closes the deleter of the row store. -/
theorem runFrom_close_snd [Api σ] (ctx : Context) (st : Session σ × BulkEditor) :
    ((close ctx).runFrom st).2
      = ((onStore LocalDeleter.release).runFrom ((flush ctx).runFrom st).2).2 := by
  rw [close, Step.runFrom_bind_of_ok (Step.runFrom_attempt _ st),
    Step.runFrom_bind_of_ok (Step.runFrom_attempt _ _)]
  rfl

end

variable {τ : Type} [CancellableApi τ]

/-- The requests that closing makes. -/
def requestsOfClose (ctx : Context) (s : Session (Recorded τ)) (e : BulkEditor) : List Request :=
  if e.pending = [] ∨ s.api.isCancelled ctx then [] else [syncRequest e.definition e.pending]

theorem flush_frame (ctx : Context) (s : Session (Recorded τ)) (e : BulkEditor) :
    ∃ shop, ((flush ctx).runFrom (s, e)).2
      = ({ s with api := ⟨shop, s.api.received ++ requestsOfClose ctx s e⟩ },
          { e with pending := [] }) := by
  by_cases hkeys : e.pending = []
  · have hflush : (flush ctx).runFrom (s, e) = (.ok (), s, e) := by
      rw [flush, Step.runFrom_ofFn]
      simp only [hkeys, List.isEmpty_nil, if_true]
    refine ⟨s.api.shop, ?_⟩
    rw [requestsOfClose, if_pos (.inl hkeys), List.append_nil, ← hkeys, hflush]
  · refine ⟨((Api.send ctx (syncRequest e.definition e.pending)).runFrom s.api.shop).2, ?_⟩
    rw [flush_of_ne_nil ctx s hkeys, Recorded.runFrom_send]
    simp only [requestsOfClose, hkeys, false_or]

/-- Closing lets the keys go, and sends them unless the statement is cancelled. -/
theorem close_frame (ctx : Context) (s : Session (Recorded τ)) (e : BulkEditor) :
    ∃ shop stores deleter, ((close ctx).runFrom (s, e)).2
      = (⟨⟨shop, s.api.received ++ requestsOfClose ctx s e⟩, stores⟩,
          { e with deleter, pending := [] }) := by
  obtain ⟨shop, hflush⟩ := flush_frame ctx s e
  obtain ⟨stores, deleter, hrelease⟩ := onStore_frame (σ := Recorded τ) LocalDeleter.release
    { s with api := ⟨shop, s.api.received ++ requestsOfClose ctx s e⟩ } { e with pending := [] }
  refine ⟨shop, stores, deleter, ?_⟩
  rw [runFrom_close_snd, hflush, hrelease]

end BulkEditor

/-! ### Ledgers and editors go together -/

namespace Ledger

theorem waiting_discard (l : Ledger) (within : Bool) : (l.discard within).waiting = [] := by
  cases within with
  | true => rfl
  | false => rfl

theorem sent_discard (l : Ledger) (within : Bool) : (l.discard within).sent = l.sent := by
  cases within with
  | true => rfl
  | false => rfl

theorem waiting_flush (l : Ledger) (cancelled : Bool) : (l.flush cancelled).waiting = [] := by
  unfold flush
  split_ifs with hnone
  · exact hnone
  · rfl
  · rfl

theorem sent_flush (l : Ledger) (cancelled : Bool) :
    (l.flush cancelled).sent
      = l.sent ++ if l.waiting = [] ∨ cancelled then [] else [l.waiting] := by
  unfold flush
  by_cases hnone : l.waiting = []
  · simp [hnone]
  · cases cancelled with
    | true => simp [hnone]
    | false => simp [hnone]

section

variable {τ : Type} [CancellableApi τ] {d : TableDefinition} {earlier : List Request} {l : Ledger}

/-- Whatever call is made, the ledger and the editor go on together. -/
theorem Agrees.call {s : Session (Recorded τ)} {e : BulkEditor} (h : Agrees d earlier l (s, e))
    (ctx : Context) (c : EditorCall) :
    Agrees d earlier
      (l.move d ⟨c, s.api.isCancelled ctx, e.deleter.savepoint.isSome,
        ((c.run ctx).runFrom (s, e)).1.isOk⟩)
      ((c.run ctx).runFrom (s, e)).2 := by
  obtain ⟨rfl, hpending, hreceived⟩ := h
  dsimp only at hpending hreceived
  cases c with
  | begin =>
    obtain ⟨stores, deleter, hrun⟩ := BulkEditor.clear_frame (LocalDeleter.begin ctx) s e
    show Agrees _ _ _ ((BulkEditor.begin ctx).runFrom (s, e)).2
    rw [BulkEditor.begin, hrun]
    exact ⟨rfl, rfl, hreceived⟩
  | delete row =>
    obtain ⟨stores, deleter, hrun⟩ := BulkEditor.delete_frame row s e
    show Agrees _ _ (l.move _ ⟨_, _, _, ((BulkEditor.delete row).runFrom (s, e)).1.isOk⟩)
      ((BulkEditor.delete row).runFrom (s, e)).2
    rw [hrun]
    cases ((BulkEditor.delete row).runFrom (s, e)).1.isOk with
    | true =>
      refine ⟨rfl, ?_, hreceived⟩
      show e.pending ++ [keyTuple e.definition row] = (l.waiting ++ [_]).map _
      rw [hpending, List.map_append]
      rfl
    | false => exact ⟨rfl, hpending, hreceived⟩
  | discard cause =>
    obtain ⟨stores, deleter, hrun⟩ := BulkEditor.clear_frame LocalDeleter.discard s e
    show Agrees _ _ (l.discard e.deleter.savepoint.isSome) (BulkEditor.discard.runFrom (s, e)).2
    rw [BulkEditor.discard, hrun]
    refine ⟨rfl, ?_, ?_⟩
    · rw [waiting_discard]
      rfl
    · rw [sent_discard]
      exact hreceived
  | complete =>
    obtain ⟨stores, deleter, hrun⟩ := BulkEditor.onStore_frame LocalDeleter.release s e
    show Agrees _ _ l ((BulkEditor.onStore LocalDeleter.release).runFrom (s, e)).2
    rw [hrun]
    exact ⟨rfl, hpending, hreceived⟩
  | close =>
    obtain ⟨shop, stores, deleter, hrun⟩ := BulkEditor.close_frame ctx s e
    show Agrees _ _ (l.flush (s.api.isCancelled ctx)) ((BulkEditor.close ctx).runFrom (s, e)).2
    rw [hrun]
    refine ⟨rfl, ?_, ?_⟩
    · rw [waiting_flush]
      rfl
    · show s.api.received ++ BulkEditor.requestsOfClose ctx s e = _
      rw [sent_flush, hreceived, List.append_assoc, List.map_append, BulkEditor.requestsOfClose]
      simp only [hpending, List.map_eq_nil_iff]
      split_ifs
      · rfl
      · rfl

theorem Agrees.runAll {st : Session (Recorded τ) × BulkEditor} (h : Agrees d earlier l st)
    (events : List (EditorEvent τ)) :
    Agrees d earlier ((runAll EditorEvent.run events st).1.foldl (after d) l)
      (runAll EditorEvent.run events st).2 := by
  induction events generalizing l st with
  | nil => exact h
  | cons v events ih =>
    -- what happens elsewhere changes neither the editor nor the requests it made
    have hbefore : Agrees d earlier l (v.before st.1, st.2) := ⟨h.definition, h.pending, h.received⟩
    have hcall := hbefore.call v.ctx v.call
    exact ih ⟨hcall.definition, hcall.pending, hcall.received⟩

end

/-! ### Each key goes one way -/

/-- The key of the row that a call deleted, if it did. -/
def deletedBy? (d : TableDefinition) (number : Nat) (o : ObservedCall) : Option KeptKey :=
  match o.call with
  | .delete row => if o.succeeded then some ⟨number, keyTuple d row⟩ else none
  | _ => none

/-- The keys of the rows that the calls deleted, in order. -/
def deleted (d : TableDefinition) (observed : List ObservedCall) : List KeptKey :=
  observed.zipIdx.filterMap fun (o, number) => deletedBy? d number o

/-- The keys that may be sent yet or were sent. -/
def passed (l : Ledger) : List KeptKey := l.sent.flatten ++ l.waiting

/-- The keys that were not sent and will not be. -/
def gone (l : Ledger) : List KeptKey := l.takenBack ++ l.dropped ++ l.lost.flatten

variable (d : TableDefinition)

theorem deleted_concat (observed : List ObservedCall) (o : ObservedCall) :
    deleted d (observed ++ [o]) = deleted d observed ++ (deletedBy? d observed.length o).toList := by
  rw [deleted, List.zipIdx_append, List.filterMap_append, deleted]
  congr 1
  simp only [List.zipIdx_cons, List.zipIdx_nil, Nat.zero_add, List.filterMap_cons,
    List.filterMap_nil]
  cases deletedBy? d observed.length o with
  | none => rfl
  | some k => rfl

/-- A key is that of the row that the call of its number deleted. -/
theorem exists_of_mem_deleted {observed : List ObservedCall} {k : KeptKey}
    (h : k ∈ deleted d observed) :
    ∃ row cancelled within, observed[k.call]? = some ⟨.delete row, cancelled, within, true⟩
      ∧ k.key = keyTuple d row := by
  obtain ⟨⟨o, number⟩, ho, hk⟩ := List.mem_filterMap.mp h
  obtain ⟨call, cancelled, within, succeeded⟩ := o
  cases call with
  | delete row =>
    cases succeeded with
    | true =>
      obtain rfl := Option.some.inj hk
      exact ⟨row, cancelled, within, List.mem_zipIdx_iff_getElem?.mp ho, rfl⟩
    | false => cases hk
  | _ => cases hk

/-- Deletes are numbered in order. -/
theorem ascending_deleted (observed : List ObservedCall) :
    (deleted d observed).Pairwise (fun a b => a.call < b.call)
      ∧ ∀ k ∈ deleted d observed, k.call < observed.length := by
  induction observed using List.reverseRecOn with
  | nil => exact ⟨.nil, by simp [deleted]⟩
  | append_singleton observed o ih =>
    obtain ⟨hasc, hbound⟩ := ih
    have hlast : ∀ k ∈ (deletedBy? d observed.length o).toList, k.call = observed.length := by
      intro k hk
      rw [Option.mem_toList] at hk
      unfold deletedBy? at hk
      split at hk
      · split_ifs at hk
        obtain rfl := Option.some.inj hk
        rfl
      · cases hk
    rw [deleted_concat, List.length_append, List.length_singleton]
    constructor
    · refine List.pairwise_append.mpr ⟨hasc, ?_, fun a ha b hb => ?_⟩
      · cases deletedBy? d observed.length o with
        | none => exact .nil
        | some k => exact List.pairwise_singleton _ _
      · rw [hlast b hb]
        exact hbound a ha
    · intro k hk
      rcases List.mem_append.mp hk with hk | hk
      · exact Nat.lt_succ_of_lt (hbound k hk)
      · rw [hlast k hk]
        exact Nat.lt_succ_self _

theorem calls_ofCalls (observed : List ObservedCall) :
    (ofCalls d observed).calls = observed.length := by
  induction observed using List.reverseRecOn with
  | nil => rfl
  | append_singleton observed o ih =>
    rw [ofCalls, List.foldl_append, List.length_append, ← ih]
    rfl

/-- One more call moves keys about and adds the key of what it deleted. -/
theorem perm_move (l : Ledger) (o : ObservedCall) :
    ((l.move d o).gone ++ (l.move d o).passed).Perm
      (l.gone ++ l.passed ++ (deletedBy? d l.calls o).toList) := by
  rw [List.perm_iff_count]
  intro k
  obtain ⟨call, cancelled, within, succeeded⟩ := o
  cases call with
  | begin =>
    simp [move, drop, gone, passed, deletedBy?]
    omega
  | delete row =>
    cases succeeded with
    | true => simp [move, gone, passed, deletedBy?]
    | false => simp [move, gone, passed, deletedBy?]
  | discard cause =>
    cases within with
    | true =>
      simp [move, discard, gone, passed, deletedBy?]
      omega
    | false =>
      simp [move, discard, drop, gone, passed, deletedBy?]
      omega
  | complete => simp [move, deletedBy?]
  | close =>
    simp only [move, flush, deletedBy?]
    split_ifs
    · simp
    · simp [gone, passed]
      omega
    · simp [gone, passed]

/-- No key is moved back to those that may be sent. -/
theorem passed_move_sublist (l : Ledger) (o : ObservedCall) :
    (l.move d o).passed.Sublist (l.passed ++ (deletedBy? d l.calls o).toList) := by
  obtain ⟨call, cancelled, within, succeeded⟩ := o
  cases call with
  | begin => simp [move, drop, passed, deletedBy?]
  | delete row =>
    cases succeeded with
    | true => simp [move, passed, deletedBy?]
    | false => simp [move, passed, deletedBy?]
  | discard cause =>
    cases within with
    | true => simp [move, discard, passed, deletedBy?]
    | false => simp [move, discard, drop, passed, deletedBy?]
  | complete => simp [move, deletedBy?]
  | close =>
    simp only [move, flush, deletedBy?]
    split_ifs
    · simp
    · simp [passed]
    · simp [passed]

theorem perm_ofCalls (observed : List ObservedCall) :
    ((ofCalls d observed).gone ++ (ofCalls d observed).passed).Perm (deleted d observed) := by
  induction observed using List.reverseRecOn with
  | nil => exact .refl _
  | append_singleton observed o ih =>
    have hmove := perm_move d (ofCalls d observed) o
    rw [calls_ofCalls] at hmove
    rw [ofCalls, List.foldl_append, deleted_concat]
    exact hmove.trans (ih.append_right _)

theorem passed_ofCalls_sublist (observed : List ObservedCall) :
    (ofCalls d observed).passed.Sublist (deleted d observed) := by
  induction observed using List.reverseRecOn with
  | nil => exact .refl _
  | append_singleton observed o ih =>
    have hmove := passed_move_sublist d (ofCalls d observed) o
    rw [calls_ofCalls] at hmove
    rw [ofCalls, List.foldl_append, deleted_concat]
    exact hmove.trans (ih.append_right _)

theorem ne_nil_of_mem_sent (observed : List ObservedCall) :
    ∀ batch ∈ (ofCalls d observed).sent, batch ≠ [] := by
  induction observed using List.reverseRecOn with
  | nil => simp [ofCalls]
  | append_singleton observed o ih =>
    have hafter : (ofCalls d (observed ++ [o])).sent = ((ofCalls d observed).move d o).sent := by
      rw [ofCalls, List.foldl_append]
      rfl
    rw [hafter]
    obtain ⟨call, cancelled, within, succeeded⟩ := o
    cases call with
    | close =>
      intro batch hbatch
      rw [move, sent_flush] at hbatch
      rcases List.mem_append.mp hbatch with hbatch | hbatch
      · exact ih batch hbatch
      · split_ifs at hbatch with hnone
        · cases hbatch
        · rw [List.mem_singleton.mp hbatch]
          exact fun hnil => hnone (.inl hnil)
    | delete row =>
      cases succeeded with
      | true => exact ih
      | false => exact ih
    | discard cause =>
      rw [move, sent_discard]
      exact ih
    | _ => exact ih

/-- The request of a batch that was sent tells the shop to delete the records of its keys. -/
theorem deletes_requestOf (observed : List ObservedCall) {batch : List KeptKey}
    (hbatch : batch ∈ (ofCalls d observed).sent) :
    (requestOf d batch).Deletes d.name (batch.map (·.key)) := by
  refine BulkEditor.deletes_syncRequest d (List.forall_mem_map.mpr fun k hk => ?_)
  have hpassed : k ∈ (ofCalls d observed).passed :=
    List.mem_append_left _ (List.mem_flatten_of_mem hbatch hk)
  obtain ⟨row, _, _, -, hkey⟩ :=
    exists_of_mem_deleted d ((passed_ofCalls_sublist d observed).subset hpassed)
  exact hkey ▸ BulkEditor.sorted_keyTuple d row

end Ledger

/-- Whatever calls an editor takes, in any order and for statements cancelled or not, whatever
happens elsewhere between them and whatever the shop answers: its keys are those that wait, and its
requests are the batches that were sent, in order, each of them the keys that one close found. Of
each row that was deleted the key goes one way only: it waits, it is in one batch that was sent, or
it was lost, taken back or dropped. So what is sent is in the order of the deletes, and is sent once
whether its request succeeds or not. -/
theorem BulkEditor.runAll_sends {τ : Type} [CancellableApi τ] (d : TableDefinition) (number : Nat)
    (deleter : LocalDeleter) (s : Session (Recorded τ)) (events : List (EditorEvent τ)) :
    let ⟨observed, s', e'⟩ :=
      runAll EditorEvent.run events (s, { definition := d, store := number, deleter })
    let l := Ledger.ofCalls d observed
    e'.pending = l.waiting.map (·.key)
      ∧ s'.api.received = s.api.received ++ l.sent.map (Ledger.requestOf d)
      ∧ (∀ batch ∈ l.sent, batch ≠ []
        ∧ (Ledger.requestOf d batch).Deletes d.name (batch.map (·.key)))
      ∧ (l.sent.flatten ++ l.waiting).Sublist (Ledger.deleted d observed)
      ∧ (l.takenBack ++ l.dropped ++ l.lost.flatten ++ (l.sent.flatten ++ l.waiting)).Perm
          (Ledger.deleted d observed)
      ∧ ((Ledger.deleted d observed).map (·.call)).Nodup := by
  have hstart : Ledger.Agrees d s.api.received {}
      (s, { definition := d, store := number, deleter }) := ⟨rfl, rfl, by simp⟩
  have hagrees := hstart.runAll events
  revert hagrees
  rcases runAll EditorEvent.run events (s, { definition := d, store := number, deleter })
    with ⟨observed, s', e'⟩
  intro hagrees
  refine ⟨hagrees.pending, hagrees.received, fun batch hbatch =>
    ⟨Ledger.ne_nil_of_mem_sent d observed batch hbatch, Ledger.deletes_requestOf d observed hbatch⟩,
    Ledger.passed_ofCalls_sublist d observed, Ledger.perm_ofCalls d observed, ?_⟩
  rw [List.Nodup, List.pairwise_map]
  exact (Ledger.ascending_deleted d observed).1.imp fun hlt => Nat.ne_of_lt hlt

end ShopTables
