import ShopTables.Proofs.Table.EditorLedger
import ShopTables.Proofs.Table.RemainingRows

/-!
# Rows that an editor removed

```
    Session × BulkEditor  --EditorCall.run-->  Session × BulkEditor
             |                                          |
           Keeps                                      Keeps
             |                                          |
         SavedRows        --EditorCall.onRows-->    SavedRows
```

Of an editor alone over its row store only the stored rows count, and those that discarding would
bring back (`Keeps.call`). Each row that is missing was taken off by one delete, and the ledger
still has the key of that delete: it waits, or a close sent or lost it, unless it was dropped
(`runAll_accounts`). What carries this through a run is that, while a savepoint is open, also the
rows missing from what it saved have their keys in the ledger, and none of these waits (`Accounts`).
-/

namespace ShopTables

/-- The stored rows, those that discarding would bring back, and whether a savepoint is open. -/
structure SavedRows where
  rows : List NumberedRow
  start : List NumberedRow
  within : Bool

namespace EditorCall

/-- What a call makes of the rows. -/
def onRows (columns : List Column) (succeeded : Bool) (w : SavedRows) : EditorCall → SavedRows
  | .begin => { w with within := true }
  | .delete row =>
    let left := if succeeded then w.rows.eraseP fun r => RowStore.hasKey columns row r.cells
      else w.rows
    ⟨left, if w.within then w.start else left, w.within⟩
  | .discard _ => ⟨w.start, w.start, false⟩
  | .complete => ⟨w.rows, w.rows, false⟩
  | .close => ⟨w.rows, w.rows, false⟩

variable {columns : List Column} {succeeded : Bool} {w : SavedRows} {initial : List NumberedRow}

/-- A call brings no row that was not there before. -/
theorem onRows_sublist (hrows : w.rows.Sublist initial) (hstart : w.start.Sublist initial)
    (c : EditorCall) :
    (c.onRows columns succeeded w).rows.Sublist initial
      ∧ (c.onRows columns succeeded w).start.Sublist initial := by
  cases c with
  | begin => exact ⟨hrows, hstart⟩
  | delete row =>
    have hleft : ((EditorCall.delete row).onRows columns succeeded w).rows.Sublist initial := by
      cases succeeded with
      | true => exact List.eraseP_sublist.trans hrows
      | false => exact hrows
    refine ⟨hleft, ?_⟩
    rw [onRows]
    split_ifs
    · exact hstart
    · exact List.eraseP_sublist.trans hrows
    · exact hstart
    · exact hrows
  | discard cause => exact ⟨hstart, hstart⟩
  | complete => exact ⟨hrows, hrows⟩
  | close => exact ⟨hrows, hrows⟩

/-- A row that a delete took off has the key of the row it was given. -/
theorem hasKey_of_delete {row : Row} {r : NumberedRow} (hr : r ∈ w.rows)
    (hgone : r ∉ ((EditorCall.delete row).onRows columns succeeded w).rows) :
    RowStore.hasKey columns row r.cells = true := by
  cases succeeded with
  | false => exact absurd hr hgone
  | true =>
    by_contra hkey
    have hleft : r ∈ w.rows.eraseP fun r => RowStore.hasKey columns row r.cells :=
      (List.mem_eraseP_of_neg (p := fun r : NumberedRow => RowStore.hasKey columns row r.cells)
        hkey).mpr hr
    exact hgone hleft

end EditorCall

/-! ### One call -/

namespace BulkEditor

namespace Alone

variable {store : RowStore} {d : LocalDeleter} {start : List NumberedRow}

/-- Discarding brings back the rows of the beginning. -/
theorem discard (h : Alone store d start) :
    LocalDeleter.discard.runFrom (store, d)
      = (.ok (), { store with stored := start, savepoints := [] }, ⟨none⟩) := by
  cases h with
  | idle closed =>
    rw [← closed]
    rfl
  | within opened => exact LocalDeleter.runFrom_discard_within opened

/-- Completing and closing keep the rows. -/
theorem release (h : Alone store d start) :
    LocalDeleter.release.runFrom (store, d)
      = (.ok (), { store with savepoints := [] }, ⟨none⟩) := by
  cases h with
  | idle closed =>
    rw [← closed]
    rfl
  | within opened => exact LocalDeleter.runFrom_release_within opened

/-- Rows may go; what an open savepoint has stays. -/
theorem withRows (h : Alone store d start) (rows : List NumberedRow) :
    Alone { store with stored := rows } d (if d.savepoint.isSome then start else rows) := by
  cases h with
  | idle closed => exact .idle closed
  | within opened => exact .within opened

end Alone

/-- An editor for a table is alone over the row store of a number, which has these rows. -/
structure Keeps {σ : Type} (d : TableDefinition) (n : Nat) (st : Session σ × BulkEditor)
    (w : SavedRows) : Prop where
  definition : st.2.definition = d
  number : st.2.store = n
  within : st.2.deleter.savepoint.isSome = w.within
  store : ∃ store, st.1.store? n = some store ∧ store.columns = d.columns ∧ store.stored = w.rows
    ∧ Alone store st.2.deleter w.start

section

variable {σ : Type}

theorem keeps_state {s : Session σ} {e : BulkEditor} {store : RowStore} {deleter : LocalDeleter}
    {start : List NumberedRow} (hs : e.store < s.stores.length)
    {keys : List RecordKey} (hcolumns : store.columns = e.definition.columns)
    (halone : Alone store deleter start) :
    Keeps e.definition e.store (state s e store deleter keys)
      ⟨store.stored, start, deleter.savepoint.isSome⟩ :=
  ⟨rfl, rfl, rfl, store, Session.store?_setStore hs store, hcolumns, rfl, halone⟩

/-- Completing, and closing when nothing is to be sent. -/
theorem Keeps.release {d : TableDefinition} {n : Nat} {st : Session σ × BulkEditor} {w : SavedRows}
    (h : Keeps d n st w) :
    Keeps d n ((onStore LocalDeleter.release).runFrom st).2 ⟨w.rows, w.rows, false⟩ := by
  obtain ⟨s, e⟩ := st
  obtain ⟨rfl, rfl, -, store, hstore, hcolumns, hrows, halone⟩ := h
  have hs := Session.lt_of_store? hstore
  have hrun := runFrom_onStore_ok hs halone.release e.pending
  rw [state_self hstore] at hrun
  rw [hrun, ← hrows]
  exact keeps_state hs hcolumns (.idle rfl)

end

variable {τ : Type} [CancellableApi τ] {d : TableDefinition} {n : Nat} {w : SavedRows}

/-- Whatever call is made, the rows go on as `EditorCall.onRows` says. -/
theorem Keeps.call {st : Session (Recorded τ) × BulkEditor} (h : Keeps d n st w)
    (hshown : RowStore.NumbersShown d.columns) (hnumbered : RowStore.Numbered w.rows)
    (ctx : Context) (c : EditorCall) :
    Keeps d n ((c.run ctx).runFrom st).2
      (c.onRows d.columns ((c.run ctx).runFrom st).1.isOk w) := by
  obtain ⟨s, e⟩ := st
  have hkeeps := h
  obtain ⟨hdefinition, hnumber, hwithin, store, hstore, hcolumns, hrows, halone⟩ := h
  obtain rfl : e.definition = d := hdefinition
  obtain rfl : e.store = n := hnumber
  have hs := Session.lt_of_store? hstore
  have hself := state_self hstore
  cases c with
  | begin =>
    obtain ⟨name, hopen⟩ := halone.begin ctx
    have hrun := runFrom_begin (s := s) hs hopen e.pending
    rw [hself] at hrun
    show Keeps _ _ ((begin ctx).runFrom (s, e)).2 ⟨w.rows, w.start, true⟩
    rw [hrun, ← hrows]
    exact keeps_state hs hcolumns (.within rfl)
  | delete row =>
    show Keeps _ _ ((delete row).runFrom (s, e)).2
      ((EditorCall.delete row).onRows _ ((delete row).runFrom (s, e)).1.isOk w)
    have hdelete := delete_cases (s := s) hs row store e.deleter e.pending
    rw [hself] at hdelete
    obtain ⟨key, store', -, hrow, hrun⟩ | ⟨cause, hrun⟩ := hdelete
    · rw [RowStore.deleteRow_eq (hcolumns ▸ hshown) (hrows ▸ hnumbered)] at hrow
      split_ifs at hrow
      obtain rfl := Except.ok.inj hrow
      rw [hrun, EditorCall.onRows, ← hrows, ← hwithin, ← hcolumns]
      exact keeps_state hs hcolumns (halone.withRows _)
    · have hsame : Alone store e.deleter (if w.within then w.start else w.rows) := by
        rw [← hrows, ← hwithin]
        exact halone.withRows store.stored
      rw [hrun]
      exact ⟨rfl, rfl, hwithin, store, hstore, hcolumns, hrows, hsame⟩
  | discard cause =>
    have hrun := runFrom_discard (s := s) hs halone.discard e.pending
    rw [hself] at hrun
    show Keeps _ _ (discard.runFrom (s, e)).2 ⟨w.start, w.start, false⟩
    rw [hrun]
    exact keeps_state hs hcolumns (.idle rfl)
  | complete => exact hkeeps.release
  | close =>
    obtain ⟨shop, hflush⟩ := flush_frame ctx s e
    show Keeps _ _ ((close ctx).runFrom (s, e)).2 ⟨w.rows, w.rows, false⟩
    rw [runFrom_close_snd, hflush]
    exact Keeps.release ⟨rfl, rfl, hwithin, store, hstore, hcolumns, hrows, halone⟩

end BulkEditor

/-! ### Missing rows and their keys -/

namespace Ledger

/-- The keys that were sent, lost or dropped. -/
def settled (l : Ledger) : List KeptKey := l.sent.flatten ++ l.lost.flatten ++ l.dropped

/-- The keys of all deletes but those that were taken back. -/
def standing (l : Ledger) : List KeptKey := l.waiting ++ l.settled

theorem standing_subset_drop (l : Ledger) : l.standing ⊆ l.drop.settled := by
  intro k hk
  simp only [standing, settled, drop, List.mem_append] at hk ⊢
  tauto

theorem standing_subset_flush (l : Ledger) (cancelled : Bool) :
    l.standing ⊆ (l.flush cancelled).standing := by
  intro k hk
  unfold flush
  split_ifs
  · exact hk
  · simp only [standing, settled, List.mem_append, List.flatten_append, List.flatten_singleton,
      List.not_mem_nil] at hk ⊢
    tauto
  · simp only [standing, settled, List.mem_append, List.flatten_append, List.flatten_singleton,
      List.not_mem_nil] at hk ⊢
    tauto

end Ledger

/-- Each of the first rows that is missing was taken off by a delete whose key stands; and if a
savepoint is open, each that is missing from what it saved, by one whose key waits no more. -/
structure Accounts (took : NumberedRow → KeptKey → Prop) (initial : List NumberedRow)
    (w : SavedRows) (l : Ledger) : Prop where
  missing : ∀ r ∈ initial, r ∉ w.rows → ∃ k ∈ l.standing, took r k
  unsaved : w.within = true → ∀ r ∈ initial, r ∉ w.start → ∃ k ∈ l.settled, took r k
  idle : w.within = false → w.start = w.rows

namespace Accounts

variable {took took' : NumberedRow → KeptKey → Prop} {initial : List NumberedRow} {w : SavedRows}
  {l : Ledger}

theorem imp (h : Accounts took initial w l) (himp : ∀ r k, took r k → took' r k) :
    Accounts took' initial w l := by
  refine ⟨fun r hr hrows => ?_, fun hopen r hr hstart => ?_, h.idle⟩
  · obtain ⟨k, hk, htook⟩ := h.missing r hr hrows
    exact ⟨k, hk, himp r k htook⟩
  · obtain ⟨k, hk, htook⟩ := h.unsaved hopen r hr hstart
    exact ⟨k, hk, himp r k htook⟩

/-- Whether a savepoint is open or not, what is missing from it has keys that stand. -/
theorem unsaved_standing (h : Accounts took initial w l) :
    ∀ r ∈ initial, r ∉ w.start → ∃ k ∈ l.standing, took r k := by
  intro r hr hstart
  cases hwithin : w.within with
  | false => exact h.missing r hr (h.idle hwithin ▸ hstart)
  | true =>
    obtain ⟨k, hk, htook⟩ := h.unsaved hwithin r hr hstart
    exact ⟨k, List.mem_append_right _ hk, htook⟩

theorem begin (h : Accounts took initial w l) :
    Accounts took initial { w with within := true } l.drop := by
  refine ⟨fun r hr hrows => ?_, fun _ r hr hstart => ?_, nofun⟩
  · obtain ⟨k, hk, htook⟩ := h.missing r hr hrows
    exact ⟨k, List.mem_append_right _ (l.standing_subset_drop hk), htook⟩
  · obtain ⟨k, hk, htook⟩ := h.unsaved_standing r hr hstart
    exact ⟨k, l.standing_subset_drop hk, htook⟩

theorem discard (h : Accounts took initial w l) :
    Accounts took initial ⟨w.start, w.start, false⟩ (l.discard w.within) := by
  refine ⟨fun r hr hstart => ?_, nofun, fun _ => rfl⟩
  cases hwithin : w.within with
  | false =>
    obtain ⟨k, hk, htook⟩ := h.unsaved_standing r hr hstart
    exact ⟨k, List.mem_append_right _ (l.standing_subset_drop hk), htook⟩
  | true =>
    obtain ⟨k, hk, htook⟩ := h.unsaved hwithin r hr hstart
    exact ⟨k, List.mem_append_right _ hk, htook⟩

/-- Completing a statement keeps its deletes and their keys. -/
theorem complete (h : Accounts took initial w l) :
    Accounts took initial ⟨w.rows, w.rows, false⟩ l :=
  ⟨h.missing, nofun, fun _ => rfl⟩

theorem close (h : Accounts took initial w l) (cancelled : Bool) :
    Accounts took initial ⟨w.rows, w.rows, false⟩ (l.flush cancelled) := by
  refine ⟨fun r hr hrows => ?_, nofun, fun _ => rfl⟩
  obtain ⟨k, hk, htook⟩ := h.missing r hr hrows
  exact ⟨k, l.standing_subset_flush cancelled hk, htook⟩

/-- A delete that kept the key of the row it took off. -/
theorem delete (h : Accounts took initial w l) {left : List NumberedRow} {k : KeptKey}
    (htook : ∀ r ∈ w.rows, r ∉ left → took r k) :
    Accounts took initial ⟨left, if w.within then w.start else left, w.within⟩
      { l with waiting := l.waiting ++ [k] } := by
  have hwait : l.standing ⊆ ({ l with waiting := l.waiting ++ [k] } : Ledger).standing :=
    List.append_subset.mpr ⟨List.Subset.trans (List.subset_append_left _ _)
      (List.subset_append_left _ _), List.subset_append_right _ _⟩
  refine ⟨fun r hr hleft => ?_, fun hwithin r hr hstart => ?_, fun hwithin => ?_⟩
  · by_cases hrows : r ∈ w.rows
    · exact ⟨k, List.mem_append_left _ (List.mem_append_right _ (List.mem_singleton_self k)),
        htook r hrows hleft⟩
    · obtain ⟨k', hk', htook'⟩ := h.missing r hr hrows
      exact ⟨k', hwait hk', htook'⟩
  · have hwithin : w.within = true := hwithin
    rw [if_pos hwithin] at hstart
    exact h.unsaved hwithin r hr hstart
  · have hwithin : w.within = false := hwithin
    rw [hwithin]
    rfl

/-- A delete that took off no row. -/
theorem refused (h : Accounts took initial w l) :
    Accounts took initial ⟨w.rows, if w.within then w.start else w.rows, w.within⟩ l := by
  obtain ⟨hmissing, hunsaved, hidle⟩ := h
  obtain ⟨rows, start, within⟩ := w
  cases within with
  | true => exact ⟨hmissing, hunsaved, hidle⟩
  | false => exact ⟨hmissing, nofun, fun _ => rfl⟩

/-- Whatever call is made, the missing rows go on having their keys. -/
theorem move (h : Accounts took initial w l) {d : TableDefinition} {o : ObservedCall}
    (hwithin : o.within = w.within)
    (htook : ∀ row, o.call = .delete row → ∀ r ∈ w.rows,
      r ∉ (o.call.onRows d.columns o.succeeded w).rows → took r ⟨l.calls, BulkEditor.keyTuple d row⟩) :
    Accounts took initial (o.call.onRows d.columns o.succeeded w) (l.move d o) := by
  obtain ⟨call, cancelled, within, succeeded⟩ := o
  obtain rfl : within = w.within := hwithin
  cases call with
  | begin => exact h.begin
  | delete row =>
    cases succeeded with
    | true => exact h.delete (htook row rfl)
    | false => exact h.refused
  | discard cause => exact h.discard
  | complete => exact h.complete
  | close => exact h.close cancelled

end Accounts

/-! ### Whole runs -/

namespace BulkEditor

variable {τ : Type} [CancellableApi τ] {d : TableDefinition}

/-- The rows of an editor's store after calls. -/
def rowsAfter (st : Session (Recorded τ) × BulkEditor) (events : List (EditorEvent τ)) :
    List NumberedRow :=
  (((runAll EditorEvent.run events st).2.1.store? st.2.store).map (·.stored)).getD []

theorem rowsAfter_eq {st : Session (Recorded τ) × BulkEditor} {events : List (EditorEvent τ)}
    {w : SavedRows} (h : Keeps d st.2.store (runAll EditorEvent.run events st).2 w) :
    rowsAfter st events = w.rows := by
  obtain ⟨store, hstore, -, hrows, -⟩ := h.store
  rw [rowsAfter, hstore, ← hrows]
  rfl

/-- Among these calls there is a delete that took off a row, by the key of the row it was given, and
kept that key. -/
def TookOff (d : TableDefinition) (st : Session (Recorded τ) × BulkEditor)
    (events : List (EditorEvent τ)) (r : NumberedRow) (given : Row) (k : KeptKey) : Prop :=
  ∃ before v after, events = before ++ v :: after ∧ v.call = .delete given
    ∧ r ∈ rowsAfter st before ∧ r ∉ rowsAfter st (before ++ [v])
    ∧ RowStore.hasKey d.columns given r.cells = true
    ∧ k = ⟨before.length, keyTuple d given⟩

theorem TookOff.concat {st : Session (Recorded τ) × BulkEditor}
    {events : List (EditorEvent τ)} {r : NumberedRow} {given : Row} {k : KeptKey}
    (h : TookOff d st events r given k) (v : EditorEvent τ) :
    TookOff d st (events ++ [v]) r given k := by
  obtain ⟨before, w, after, rfl, hrest⟩ := h
  exact ⟨before, w, after ++ [v], by simp, hrest⟩

/-- After any calls an editor alone over its store is so still, and the missing rows have their
keys. -/
theorem keeps_and_accounts {st : Session (Recorded τ) × BulkEditor} {initial : List NumberedRow}
    (h : Keeps d st.2.store st ⟨initial, initial, false⟩) (hshown : RowStore.NumbersShown d.columns)
    (hnumbered : RowStore.Numbered initial) (events : List (EditorEvent τ))
    (hothers : ∀ v ∈ events, ∀ stores, (v.stores stores)[st.2.store]? = stores[st.2.store]?) :
    ∃ w : SavedRows, Keeps d st.2.store (runAll EditorEvent.run events st).2 w
      ∧ w.rows.Sublist initial ∧ w.start.Sublist initial
      ∧ Accounts (fun r k => ∃ given, TookOff d st events r given k) initial w
          (Ledger.ofCalls d (runAll EditorEvent.run events st).1) := by
  induction events using List.reverseRecOn with
  | nil =>
    exact ⟨⟨initial, initial, false⟩, h, .refl _, .refl _, fun r hr hrows => absurd hr hrows, nofun,
      fun _ => rfl⟩
  | append_singleton events v ih =>
    obtain ⟨w, hkeeps, hrows, hstart, haccounts⟩ :=
      ih fun v hv => hothers v (List.mem_append_left _ hv)
    have hlength := length_runAll EditorEvent.run events st
    have hrowsBefore := rowsAfter_eq hkeeps
    have hrun := runAll_concat EditorEvent.run events v st
    generalize runAll EditorEvent.run events st = before at hkeeps haccounts hlength hrun
    obtain ⟨observed, s, e⟩ := before
    -- what happens elsewhere does not touch this store
    have hkeeps' : Keeps d st.2.store (v.before s, e) w := by
      obtain ⟨hdefinition, hnumber, hwithin, store, hstore, hrest⟩ := hkeeps
      refine ⟨hdefinition, hnumber, hwithin, store, ?_, hrest⟩
      exact (hothers v (List.mem_append_right _ (List.mem_singleton_self v)) s.stores).trans hstore
    have hcall := hkeeps'.call hshown (hnumbered.sublist hrows) v.ctx v.call
    have hafter : Keeps d st.2.store (runAll EditorEvent.run (events ++ [v]) st).2
        (v.call.onRows d.columns (v.outcome s e).1.isOk w) := by
      rw [hrun]
      exact hcall
    have htook : ∀ row, v.call = .delete row → ∀ r ∈ w.rows,
        r ∉ (v.call.onRows d.columns (v.outcome s e).1.isOk w).rows →
        ∃ given, TookOff d st (events ++ [v]) r given
          ⟨(Ledger.ofCalls d observed).calls, keyTuple d row⟩ := by
      intro row hdelete r hr hgone
      refine ⟨row, events, v, [], rfl, hdelete, hrowsBefore ▸ hr, rowsAfter_eq hafter ▸ hgone, ?_, ?_⟩
      · rw [hdelete] at hgone
        exact EditorCall.hasKey_of_delete hr hgone
      · rw [Ledger.calls_ofCalls, ← hlength]
    have hgrown : Accounts (fun r k => ∃ given, TookOff d st (events ++ [v]) r given k) initial w
        (Ledger.ofCalls d observed) :=
      haccounts.imp fun r k htook => htook.imp fun given h => h.concat v
    have hmove := hgrown.move (d := d) (o := (v.run (s, e)).1) hkeeps.within htook
    obtain ⟨hrows', hstart'⟩ := EditorCall.onRows_sublist hrows hstart v.call
    refine ⟨_, hafter, hrows', hstart', ?_⟩
    rw [hrun, Ledger.ofCalls, List.foldl_append]
    exact ⟨hmove.missing, hmove.unsaved, hmove.idle⟩

/-- No two stored rows have one key. -/
def DistinctKeys (store : RowStore) : Prop :=
  ∀ a ∈ store.stored, ∀ b ∈ store.stored,
    RowStore.hasKey store.columns (store.valuesOf a) b.cells = true → a = b

theorem keeps_of_read {ctx : Context} {partitions number : Nat} {s₀ s : Session (Recorded τ)}
    {store : RowStore}
    (hread : (Session.materialize ctx d partitions).runFrom s₀ = (.ok number, s))
    (hstore : s.store? number = some store) :
    (∃ inserted, Filled d partitions inserted store)
      ∧ Keeps d number (s, { definition := d, store := number })
          ⟨store.stored, store.stored, false⟩ := by
  obtain ⟨_, _, filled, -, -, hfilled, rfl, hstores⟩ := Session.materialize_ok hread
  rw [Session.store?, hstores, List.getElem?_concat_length] at hstore
  obtain rfl := Option.some.inj hstore
  obtain ⟨inserted, -, hfilled⟩ := Session.storeOf_ok hfilled
  refine ⟨⟨inserted, hfilled⟩, rfl, rfl, rfl, filled, ?_, hfilled.columns, rfl,
    .idle hfilled.savepoints⟩
  rw [Session.store?, hstores, List.getElem?_concat_length]

/-- Of an editor alone over the row store of a table just read, after any calls: each row that is
missing from the store was taken off by a delete of a row with its key, which is that row itself if
it was given as it was read; and the key tuple of the row that was given waits in the editor, or it
is in a batch that a close sent or lost because its statement was cancelled, or it was dropped by
beginning, or by discarding when no savepoint was open. The requests of the batches that were sent
tell the shop to delete the records of just their keys. -/
theorem runAll_accounts {ctx : Context} {partitions number : Nat} {s₀ s : Session (Recorded τ)}
    {store : RowStore}
    (hread : (Session.materialize ctx d partitions).runFrom s₀ = (.ok number, s))
    (hstore : s.store? number = some store) (hshown : RowStore.NumbersShown d.columns)
    (hkeys : DistinctKeys store) (events : List (EditorEvent τ))
    (hothers : ∀ v ∈ events, ∀ stores, (v.stores stores)[number]? = stores[number]?) :
    let start := (s, ({ definition := d, store := number } : BulkEditor))
    let ⟨observed, s', e'⟩ := runAll EditorEvent.run events start
    let l := Ledger.ofCalls d observed
    e'.pending = l.waiting.map (·.key)
      ∧ s'.api.received = s.api.received ++ l.sent.map (Ledger.requestOf d)
      ∧ (∀ batch ∈ l.sent, (Ledger.requestOf d batch).Deletes d.name (batch.map (·.key)))
      ∧ ∃ store', s'.store? number = some store' ∧ store'.stored.Sublist store.stored
        ∧ ∀ r ∈ store.stored, r ∉ store'.stored → ∃ given k, TookOff d start events r given k
          ∧ (given ∈ store.rows → given = store.valuesOf r)
          ∧ (k ∈ l.waiting ∨ k ∈ l.sent.flatten ∨ k ∈ l.lost.flatten ∨ k ∈ l.dropped) := by
  intro start
  obtain ⟨⟨inserted, hfilled⟩, hread⟩ := keeps_of_read hread hstore
  have hkeeps : Keeps d start.2.store start ⟨store.stored, store.stored, false⟩ := hread
  obtain ⟨w, hafter, hrows, -, haccounts⟩ :=
    keeps_and_accounts hkeeps hshown hfilled.numbered events hothers
  have hstart : Ledger.Agrees d s.api.received {} start := ⟨rfl, rfl, by simp [start]⟩
  have hagrees := hstart.runAll events
  revert hafter haccounts hagrees
  rcases runAll EditorEvent.run events start with ⟨observed, s', e'⟩
  intro hafter haccounts hagrees
  obtain ⟨store', hstore', -, hstored, -⟩ := hafter.store
  refine ⟨hagrees.pending, hagrees.received, fun _ hbatch => Ledger.deletes_requestOf d _ hbatch,
    store', hstore', hstored ▸ hrows, fun r hr hgone => ?_⟩
  obtain ⟨k, hk, given, htook⟩ := haccounts.missing r hr (hstored ▸ hgone)
  refine ⟨given, k, htook, fun hgiven => ?_, ?_⟩
  · -- a row as it was read has the key of the stored row it was read from, and of no other
    obtain ⟨r', hr', rfl⟩ := RowStore.exists_stored_of_mem_rows hgiven
    obtain ⟨_, _, _, -, -, -, -, hkey, -⟩ := htook
    rw [hkeys r' hr' r hr (hfilled.columns ▸ hkey)]
  · simpa only [Ledger.standing, Ledger.settled, List.mem_append, or_assoc] using hk

/-! ### Two small tables -/

/-- A table of switches, known by whether they are on. -/
def switches : TableDefinition where
  name := "product"
  columns :=
    [{ name := "on", type := .boolean, nullable := false, primaryKey := true, source := "product",
       comment := none }]
  isMapping := false

/-- Calls for one statement, with nothing happening elsewhere. -/
def callsOnly (calls : List EditorCall) : List (EditorEvent CannedApi) :=
  calls.map fun call => { ctx := ⟨"q"⟩, call }

/-- The shop of one record is read into a store of one row, the keys of which are distinct. -/
def ReadsAs (d : TableDefinition) (record : List (String × Json)) (cells : List Cell)
    (s : Session (Recorded CannedApi)) (store : RowStore) : Prop :=
  (Session.materialize ⟨"q"⟩ d 1).runFrom (TableHandle.offering [record]) = (.ok 0, s)
    ∧ s.store? 0 = some store ∧ store.stored = [⟨1, cells⟩]
    ∧ RowStore.NumbersShown d.columns ∧ DistinctKeys store

/-- The shop of one record after it was read. -/
def shopRead (record : List (String × Json)) : Recorded CannedApi :=
  ((Api.send ⟨"q"⟩ ⟨.post, searchPath "product", none⟩).runFrom
    (TableHandle.offering [record]).api).2

theorem readsAs {d : TableDefinition} {record : List (String × Json)} {cells : List Cell}
    {store : RowStore} (hname : d.name = "product")
    (hreadable : Json.ReadableFields (Json.maxDepth - 3) record)
    (hrecord : KeyList.ofList (Json.canonicalFields record) = record)
    (hstore : Session.storeOf d 1 [record] = .ok store) (hstored : store.stored = [⟨1, cells⟩])
    (hshown : RowStore.NumbersShown d.columns) :
    ReadsAs d record cells { api := shopRead record, stores := [store] } store := by
  have hread : SearchAnswer.read? (SearchAnswer.answerDocument [record] 1).bytes
      = some ⟨some 1, [record]⟩ := by
    rw [SearchAnswer.read?_answerDocument (by decide) (by decide) (by simpa using hreadable),
      List.map_singleton, hrecord]
  have hsend : (Api.send ⟨"q"⟩ ⟨.post, searchPath "product", none⟩).runFrom
      (TableHandle.offering [record]).api
        = (.ok (SearchAnswer.answerDocument [record] 1).bytes, shopRead record) := rfl
  rw [← hname] at hsend
  have hdistinct : DistinctKeys store := by
    intro a ha b hb _
    rw [hstored, List.mem_singleton] at ha hb
    rw [ha, hb]
  have hanswer : (TableHandle.offering [record]).answer ⟨"q"⟩ d
      = .ok (SearchAnswer.answerDocument [record] 1).bytes := congrArg Prod.fst hsend
  refine ⟨?_, rfl, hstored, hshown, hdistinct⟩
  rw [Session.runFrom_materialize,
    TableDefinition.storeOfAnswer_eq_ok.mpr ⟨_, _, hanswer, hread, hstore⟩, Session.asked,
    TableDefinition.searchRequest, hsend]
  rfl

/-- A store of one row. -/
def storeOfOne (d : TableDefinition) (cells : List Cell) : RowStore where
  name := d.name
  columns := d.columns
  partitionCount := 1
  partitionCount_pos := Nat.one_pos
  stored := [⟨1, cells⟩]
  savepoints := []

theorem readsAs_product :
    ReadsAs products [("id", .string "1")] [.text "1"]
      { api := shopRead [("id", .string "1")], stores := [storeOfOne products [.text "1"]] }
      (storeOfOne products [.text "1"]) :=
  readsAs rfl (by simp [Json.ReadableFields, Json.Readable]) rfl rfl rfl (by
    unfold RowStore.NumbersShown
    decide)

theorem readsAs_switch :
    ReadsAs switches [("on", .bool true)] [.integer 1]
      { api := shopRead [("on", .bool true)], stores := [storeOfOne switches [.integer 1]] }
      (storeOfOne switches [.integer 1]) :=
  readsAs rfl (by simp [Json.ReadableFields, Json.Readable]) rfl rfl rfl (by
    unfold RowStore.NumbersShown
    decide)

/-- The key of a product that was deleted is in the batch that was sent, and so it is in the payload
of the one request that the shop received. -/
theorem runAll_accounts_products :
    ∃ s store, ReadsAs products [("id", .string "1")] [.text "1"] s store
      ∧ (let start := (s, ({ definition := products, store := 0 } : BulkEditor))
        let events := callsOnly [.begin, .delete [.text "1"], .complete, .close]
        let ⟨observed, s', _⟩ := runAll EditorEvent.run events start
        ∃ given k request, TookOff products start events ⟨1, [.text "1"]⟩ given k
          ∧ k ∈ (Ledger.ofCalls products observed).sent.flatten
          ∧ s'.api.received = s.api.received ++ [request]
          ∧ request.document? = some (.object [("delete-product", .object
              [("action", .string "delete"), ("entity", .string "product"),
                ("payload", .array [.object [("id", .string "1")]])])])) := by
  refine ⟨_, _, readsAs_product, ?_⟩
  obtain ⟨hread, hstore, hstored, hshown, hkeys⟩ := readsAs_product
  obtain ⟨-, hreceived, hdeletes, store', hstore', -, haccounts⟩ :=
    runAll_accounts hread hstore hshown hkeys
      (callsOnly [.begin, .delete [.text "1"], .complete, .close]) (fun v hv stores => by
        obtain ⟨_, -, rfl⟩ := List.mem_map.mp hv
        rfl)
  have hgone : store'.stored = [] := by
    obtain rfl := Option.some.inj hstore'
    rfl
  obtain ⟨given, k, htook, -, hk⟩ := haccounts ⟨1, [.text "1"]⟩
    (hstored ▸ List.mem_singleton_self _) (hgone ▸ List.not_mem_nil)
  obtain ⟨-, -, v, hdocument, entity, hname, rfl⟩ := hdeletes _ (List.mem_singleton_self _)
  obtain rfl : entity = "product" := hname.unique (by decide)
  refine ⟨given, k, _, htook, ?_, hreceived, hdocument⟩
  rcases hk with hk | hk | hk | hk
  · exact absurd hk List.not_mem_nil
  · exact hk
  · exact absurd hk List.not_mem_nil
  · exact absurd hk List.not_mem_nil

/-- The row of a table just read is missing after these calls, although its key does not wait, no
close was to send anything, and the shop received no request. -/
def Unaccounted (d : TableDefinition) (record : List (String × Json)) (cells : List Cell)
    (calls : List EditorCall) : Prop :=
  ∃ s store, ReadsAs d record cells s store
    ∧ (let start := (s, ({ definition := d, store := 0 } : BulkEditor))
      let ⟨observed, s', e'⟩ := runAll EditorEvent.run (callsOnly calls) start
      rowsAfter start (callsOnly calls) = []
        ∧ keyTuple d (store.valuesOf ⟨1, cells⟩) ∉ e'.pending
        ∧ (Ledger.ofCalls d observed).sent = [] ∧ (Ledger.ofCalls d observed).lost = []
        ∧ s'.api.received = s.api.received)

/-- Beginning again lets go of the keys of deletes that stand, and so does beginning or discarding
after completing; and a row can be deleted by a key that is written in another way. -/
theorem rows_unaccounted :
    Unaccounted products [("id", .string "1")] [.text "1"]
        [.begin, .delete [.text "1"], .begin]
      ∧ Unaccounted products [("id", .string "1")] [.text "1"]
        [.begin, .delete [.text "1"], .complete, .begin]
      ∧ Unaccounted products [("id", .string "1")] [.text "1"]
        [.begin, .delete [.text "1"], .complete, .discard (.missingPrimaryKey "product")]
      ∧ Unaccounted switches [("on", .bool true)] [.integer 1] [.begin, .delete [.text "1"]] := by
  refine ⟨⟨_, _, readsAs_product, rfl, ?_, rfl, rfl, rfl⟩,
    ⟨_, _, readsAs_product, rfl, ?_, rfl, rfl, rfl⟩,
    ⟨_, _, readsAs_product, rfl, ?_, rfl, rfl, rfl⟩,
    ⟨_, _, readsAs_switch, rfl, ?_, rfl, rfl, rfl⟩⟩
  · exact List.not_mem_nil
  · exact List.not_mem_nil
  · exact List.not_mem_nil
  · show keyTuple switches [.boolean true] ∉ [keyTuple switches [.text "1"]]
    decide

end BulkEditor

end ShopTables
