import ShopTables.Proofs.Table.RecordKeys
import ShopTables.Proofs.Table.RemainingRows

/-!
# The keys that a delete statement sends

```
    records  --scan-->  rows  --accept-->  chosen rows  --keyOf?-->  keys  --request-->  shop
                          |                     |
                      before.stored --deleteRow--> after.stored
```

A delete statement takes one row off for each key that it sends, in one order
(`RowStore.Regular.exists_removed`), whatever its outcome is (`deleteMatching_cases`). So what the
shop is told, if it is told anything, names exactly the records whose rows are gone
(`deleteMatching_addresses`).
-/

namespace ShopTables

/-! ### Rows taken off one by one -/

/-- What stands beside a list without repetitions is given by a function. -/
theorem exists_map_eq_of_forall₂ {α β : Type} [Nonempty β] {R : α → β → Prop} {as : List α}
    {bs : List β} (hnodup : as.Nodup) (h : List.Forall₂ R as bs) :
    ∃ f : α → β, as.map f = bs ∧ ∀ a ∈ as, R a (f a) := by
  classical
  induction h with
  | nil => exact ⟨fun _ => Classical.arbitrary β, rfl, List.forall_mem_nil _⟩
  | @cons a b as bs hab _ ih =>
    obtain ⟨hmem, hnodup⟩ := List.nodup_cons.mp hnodup
    obtain ⟨f, rfl, hf⟩ := ih hnodup
    have hother : ∀ a' ∈ as, Function.update f a b a' = f a' := fun a' ha' =>
      Function.update_of_ne (ne_of_mem_of_not_mem ha' hmem) b f
    refine ⟨Function.update f a b, ?_, List.forall_mem_cons.mpr ⟨?_, fun a' ha' => ?_⟩⟩
    · rw [List.map_cons, Function.update_self, List.map_congr_left hother]
    · rwa [Function.update_self]
    · rw [hother a' ha']
      exact hf a' ha'

/-- Deletes take off one row after the other, each with the key it was asked for. -/
theorem RowStore.Regular.exists_removed {s s' : RowStore} (h : Regular s) {rows : List Row}
    (hrows : ∀ row ∈ rows, Kept s.columns (row.map Cell.ofValue))
    (hfold : rows.foldlM deleteRow s = .ok s') :
    ∃ removed : List NumberedRow,
      List.Forall₂ (fun row r => keyOf s.columns r.cells = rowKey s.columns row) rows removed
      ∧ (removed ++ s'.stored).Perm s.stored := by
  induction rows generalizing s with
  | nil =>
    cases hfold
    exact ⟨[], .nil, List.Perm.refl _⟩
  | cons row rows ih =>
    rw [List.foldlM_cons] at hfold
    cases hrow : s.deleteRow row with
    | error e =>
      rw [hrow] at hfold
      cases hfold
    | ok s₁ =>
      rw [hrow] at hfold
      rw [deleteRow_eq h.shown h.numbered] at hrow
      split_ifs at hrow with hwide hany
      obtain rfl := Except.ok.inj hrow
      obtain ⟨found, hfound, hkey⟩ := List.any_eq_true.mp hany
      obtain ⟨r, before, after, -, hkey, hsplit, hleft⟩ :=
        List.exists_of_eraseP (p := fun r => hasKey s.columns row r.cells) hfound hkey
      have hr : r ∈ s.stored := by
        rw [hsplit]
        exact List.mem_append_right _ List.mem_cons_self
      rw [hasKey_eq (hrows row List.mem_cons_self) (h.kept r hr), decide_eq_true_iff] at hkey
      obtain ⟨removed, hbeside, hperm⟩ := ih (h.of_sublist List.eraseP_sublist)
        (fun row hrow => hrows row (List.mem_cons_of_mem _ hrow)) hfold
      refine ⟨r :: removed, .cons hkey hbeside, ?_⟩
      have hrest : (removed ++ s'.stored).Perm (before ++ after) := hleft ▸ hperm
      rw [hsplit]
      exact (hrest.cons r).trans List.perm_middle.symm

/-! ### Rows and their records -/

/-- Each row of a filled store was made of one of the records, in their order. -/
theorem Filled.exists_recordOf {d : TableDefinition} {partitions : Nat} {inserted : List Row}
    {store : RowStore} {records : List (KeyList Json)} (h : Filled d partitions inserted store)
    (hrecords : ∀ record ∈ records, (KeyList.keys record).Nodup)
    (hinserted : records.mapM d.rowOf = .ok inserted) :
    ∃ recordOf : NumberedRow → KeyList Json, store.stored.map recordOf = records
      ∧ ∀ r ∈ store.stored, d.MadeOf (recordOf r) r.cells := by
  have hnodup : store.stored.Nodup :=
    h.numbered.ascending.imp fun hlt hsame => absurd (hsame ▸ hlt) (Nat.lt_irrefl _)
  exact exists_map_eq_of_forall₂ hnodup (h.madeOf hrecords hinserted).flip

/-- The keys kept of deleted rows name the records of the rows that are gone. -/
theorem Filled.exists_removed_named {registered : String} {e : Entity} {isMapping : Bool}
    {d : TableDefinition} {partitions depth : Nat} {inserted chosen : List Row}
    {before after : RowStore} {recordOf : NumberedRow → KeyList Json} {keys : List RecordKey}
    (h : Filled d partitions inserted before) (hd : d = .ofEntity registered e isMapping)
    (hshown : RowStore.NumbersShown d.columns)
    (hmade : ∀ r ∈ before.stored, d.MadeOf (recordOf r) r.cells)
    (hgives : ∀ r ∈ before.stored, e.GivesKey (recordOf r))
    (hsound : ∀ r ∈ before.stored, Json.SoundFields depth (recordOf r))
    (hchosen : chosen ⊆ before.rows) (hkeys : chosen.mapM (BulkEditor.keyOf? d) = some keys)
    (hfold : chosen.foldlM RowStore.deleteRow before = .ok after) :
    ∃ removed : List NumberedRow, (removed ++ after.stored).Perm before.stored
      ∧ List.Forall₂ (fun r key => e.Names (recordOf r) key) removed keys := by
  have hregular := h.regular hshown
  obtain ⟨removed, hbeside, hperm⟩ := hregular.exists_removed
    (fun row hrow => hregular.kept_of_mem_rows (hchosen hrow)) hfold
  refine ⟨removed, hperm, ?_⟩
  have hcommon := forall₂_of_common hbeside (forall₂_of_mapM_some hkeys)
  refine forall₂_imp_of_mem hcommon fun r hr key hrow => ?_
  obtain ⟨row, hrow, hsame, hkey⟩ := hrow
  have hr : r ∈ before.stored := hperm.subset (List.mem_append_left _ hr)
  -- the row that was asked for came from a row with the same key
  obtain ⟨asked, hasked, rfl⟩ := RowStore.exists_stored_of_mem_rows (hchosen hrow)
  rw [hregular.rowKey_valuesOf hasked, h.columns] at hsame
  obtain ⟨hsorted, htexts⟩ := BulkEditor.sorted_and_perm_of_keyOf? h.names
    (h.length_of_mem_rows (hchosen hrow)) hkey
  rw [← (hmade r hr).keyTexts_congr (hmade asked hasked) hd (hgives r hr) (hgives asked hasked)
    (hsound r hr) (hsound asked hasked) h.columns hsame] at htexts
  exact (hmade r hr).names hd (hgives r hr) (hsound r hr) h.columns hsorted htexts

/-! ### Whole statements -/

/-- A statement whose scan and deleter can be had runs the deleter over the accepted rows, and counts
these if it succeeds. -/
theorem Target.runFrom_deleteMatching {ε σ π δ : Type} {t : Target ε σ π δ}
    {accept : Row → StateM σ Bool} {s s₁ s₃ : σ} {rows : List Row} {d : δ}
    (hscan : t.scan.runFrom s = (.ok rows, s₁))
    (hopen : t.openDeleter.runFrom ((rows.mapM accept).run s₁).2 = (.ok d, s₃)) :
    (t.deleteMatching accept).runFrom s
      = (((t.deleter.run (selected rows (answersFrom accept rows s₁))).runFrom (s₃, d)).1.map
            fun _ => (selected rows (answersFrom accept rows s₁)).length,
          ((t.deleter.run (selected rows (answersFrom accept rows s₁))).runFrom (s₃, d)).2.1) := by
  unfold Target.deleteMatching
  rw [Step.runFrom_bind_of_ok hscan, Step.runFrom_bind_of_ok (runFrom_accepted accept rows s₁),
    Step.runFrom_bind_of_ok hopen]
  generalize selected rows (answersFrom accept rows s₁) = chosen
  rcases hrun : (t.deleter.run chosen).runFrom (s₃, d) with ⟨r, s₄, d'⟩
  have hwith : (withDeleter d (t.deleter.run chosen)).runFrom s₃ = (r, s₄) := by
    rw [withDeleter, Step.runFrom_ofFn]
    dsimp only
    rw [hrun]
  cases r with
  | ok _ => rw [Step.runFrom_bind_of_ok hwith]; rfl
  | error cause => rw [Step.runFrom_bind_of_error hwith]; rfl

namespace TableHandle

variable {τ : Type} [CancellableApi τ]

/-- An editor that is closed makes one request for the keys it has, if any, unless the statement is
cancelled; and it is only closed well if it made it. -/
theorem received_of_close {ctx : Context} {s s' : Session (Recorded τ)} {e e' : BulkEditor}
    {store : RowStore} {keys : List RecordKey} {result : Except TableError Unit}
    (hs : e.store < s.stores.length)
    (h : (BulkEditor.close ctx).runFrom (BulkEditor.state s e store ⟨none⟩ keys)
      = (result, s', e')) :
    ∃ sent, s'.stores = s.stores.set e.store store
      ∧ s'.api.received = s.api.received ++ sent
      ∧ (sent = [] ∨ sent = [BulkEditor.syncRequest e.definition keys])
      ∧ (result = .ok () →
        sent = if keys = [] then [] else [BulkEditor.syncRequest e.definition keys]) := by
  cases result with
  | ok _ =>
    obtain ⟨hstores, hreceived⟩ := received_of_close_ok hs h
    refine ⟨_, hstores, hreceived, ?_, fun _ => rfl⟩
    split_ifs
    · exact .inl rfl
    · exact .inr rfl
  | error cause =>
    obtain ⟨hsome, -⟩ := BulkEditor.syncFails_of_close hs h
    rw [BulkEditor.runFrom_close_of_ne_nil hs ctx store hsome] at h
    obtain ⟨rfl, -⟩ := Prod.mk.inj (Prod.mk.inj h).2
    refine ⟨_, rfl, rfl, ?_, nofun⟩
    split_ifs
    · exact .inl rfl
    · exact .inr rfl

/-- What the run of a new editor comes to: it is undone and sends nothing, or it deletes all rows,
and sends their keys unless there are none or the statement is cancelled. -/
theorem received_of_run {ctx : Context} {s s' : Session (Recorded τ)} {d : TableDefinition}
    {place : Nat} {e' : BulkEditor} {before : RowStore} {rows : List Row}
    {result : Except TableError Unit} (hstore : s.store? place = some before)
    (hclosed : before.savepoints = [])
    (h : ((BulkEditor.calls ctx).run rows).runFrom (s, { definition := d, store := place })
      = (result, s', e')) :
    ∃ (after : RowStore) (deleted : List Row) (keys : List RecordKey) (sent : List Request),
      s'.store? place = some after ∧ s'.api.received = s.api.received ++ sent
        ∧ deleted.Sublist rows ∧ deleted.mapM (BulkEditor.keyOf? d) = some keys
        ∧ deleted.foldlM RowStore.deleteRow before = .ok after
        ∧ (sent = [] ∨ sent = [BulkEditor.syncRequest d keys])
        ∧ (result = .ok () → deleted = rows
          ∧ sent = if keys = [] then [] else [BulkEditor.syncRequest d keys]) := by
  have hlt := Session.lt_of_store? hstore
  obtain ⟨cause, _, -, hfail⟩ | ⟨after, keys, _, hfold, hkeys, -, -, hclose⟩ :=
    BulkEditor.run_cases (e := { definition := d, store := place }) hstore (.idle hclosed) ctx rows
  · rw [hfail] at h
    obtain ⟨rfl, hst⟩ := Prod.mk.inj h
    obtain ⟨rfl, -⟩ := Prod.mk.inj hst
    have hsame : { before with savepoints := [] } = before := by rw [← hclosed]
    refine ⟨before, [], [], [], ?_, (List.append_nil _).symm, List.nil_sublist _, rfl, rfl, .inl rfl,
      nofun⟩
    rw [hsame]
    exact Session.store?_setStore hlt before
  · rw [hclose] at h
    obtain ⟨sent, hstores, hreceived, hsent, hdone⟩ := received_of_close hlt h
    have hsame : { after with savepoints := [] } = after := by
      obtain ⟨kept, -, rfl⟩ := RowStore.foldlM_deleteRow_frame hfold
      rw [← hclosed]
    refine ⟨after, rows, keys, sent, ?_, hreceived, List.Sublist.refl _, hkeys, hfold, hsent,
      fun hok => ⟨rfl, hdone hok⟩⟩
    rw [Session.store?, hstores, List.getElem?_set_self hlt, hsame]

/-- What a delete statement comes to: its scan fails, or it deletes rows that were accepted, and with
these their keys are sent, unless there are none or the statement is cancelled. A statement that is
undone deletes none, and one that succeeds all of them. -/
theorem deleteMatching_cases {ctx : Context} {accept : Row → StateM τ Bool}
    {s s' : Session (Recorded τ)} {t t' : TableHandle} {result : Except TableError Nat}
    (h : (deleteMatching ctx (onShop accept)).runFrom (s, t) = (result, s', t')) :
    (∃ cause, result = .error cause ∧ (scan ctx).runFrom (s, t) = (.error cause, s', t'))
      ∨ ∃ (s₁ : Session (Recorded τ)) (t₁ : TableHandle) (before after : RowStore)
          (chosen : List Row) (keys : List RecordKey) (sent : List Request),
        (scan ctx).runFrom (s, t) = (.ok before.rows, s₁, t₁)
        ∧ t₁.materialized? s₁ = some before ∧ t'.materialized? s' = some after
        ∧ s'.api.received = s₁.api.received ++ sent
        ∧ chosen.Sublist (selected before.rows (answersFrom accept before.rows s₁.api.shop))
        ∧ chosen.mapM (BulkEditor.keyOf? t.definition) = some keys
        ∧ chosen.foldlM RowStore.deleteRow before = .ok after
        ∧ (sent = [] ∨ sent = [BulkEditor.syncRequest t.definition keys])
        ∧ ∀ n, result = .ok n → n = chosen.length
          ∧ chosen = selected before.rows (answersFrom accept before.rows s₁.api.shop)
          ∧ sent = if keys = [] then [] else [BulkEditor.syncRequest t.definition keys] := by
  rcases hscan : (scan ctx).runFrom (s, t) with ⟨scanned, s₁, t₁⟩
  cases scanned with
  | error cause =>
    have hfail : (deleteMatching ctx (onShop accept)).runFrom (s, t) = (.error cause, s₁, t₁) :=
      Step.runFrom_bind_of_error hscan
    rw [h] at hfail
    obtain ⟨rfl, hst⟩ := Prod.mk.inj hfail
    obtain ⟨rfl, rfl⟩ := Prod.mk.inj hst
    exact .inl ⟨cause, rfl, rfl⟩
  | ok rows =>
    obtain ⟨bytes, answer, inserted, store, -, -, -, hfilled, hstores, rfl, rfl⟩ := scan_ok hscan
    -- the editor is opened over the row store just filled, and asking has changed only the shop
    generalize hs₂ : ({ s₁ with api := { s₁.api with
      shop := ((store.rows.mapM accept).run s₁.api.shop).2 } } : Session (Recorded τ)) = s₂
    have hopen : (target ctx).openDeleter.runFrom ((store.rows.mapM (onShop accept)).run
          (s₁, { t with memory := some s.stores.length })).2
        = (.ok { definition := t.definition, store := s.stores.length }, s₂,
            { t with memory := some s.stores.length }) := by
      rw [run_mapM_onShop, hs₂]
      rfl
    have hstores₂ : s₂.stores = s.stores ++ [store] := by rw [← hs₂, ← hstores]
    have hstore : s₂.store? s.stores.length = some store := by
      rw [Session.store?, hstores₂, List.getElem?_concat_length]
    have hbefore : ({ t with memory := some s.stores.length } : TableHandle).materialized? s₁
        = some store := by
      rw [materialized?, Option.bind_some, Session.store?, hstores, List.getElem?_concat_length]
    have hreceived₂ : s₂.api.received = s₁.api.received := by rw [← hs₂]
    rw [deleteMatching, Target.runFrom_deleteMatching hscan hopen, answersFrom_onShop,
      runFrom_target_run] at h
    rcases hrun : ((BulkEditor.calls ctx).run (selected store.rows
      (answersFrom accept store.rows s₁.api.shop))).runFrom
        (s₂, { definition := t.definition, store := s.stores.length }) with ⟨ran, s₃, e₃⟩
    rw [hrun] at h
    obtain ⟨hresult, hst⟩ := Prod.mk.inj h
    obtain ⟨rfl, rfl⟩ := Prod.mk.inj hst
    obtain ⟨after, chosen, keys, sent, hafter, hreceived, hchosen, hkeys, hfold, hsent, hdone⟩ :=
      received_of_run hstore hfilled.savepoints hrun
    refine .inr ⟨s₁, _, store, after, chosen, keys, sent, rfl, hbefore, ?_, ?_, hchosen, hkeys,
      hfold, hsent, fun n hn => ?_⟩
    · rw [materialized?, Option.bind_some, hafter]
    · rw [hreceived, hreceived₂]
    · rw [← hresult] at hn
      cases ran with
      | error cause => cases hn
      | ok _ =>
        obtain ⟨rfl, hsent⟩ := hdone rfl
        exact ⟨(Except.ok.inj hn).symm, rfl, hsent⟩

omit [CancellableApi τ] in
/-- Searching is not synchronizing. -/
theorem requestsTo_syncPath {a a' : Recorded τ} {entity : String} {sent : List Request}
    (h : a'.received = a.received ++ [⟨.post, searchPath entity, none⟩] ++ sent)
    (hsent : ∀ request ∈ sent, request.path = syncPath) :
    a'.requestsTo syncPath = a.requestsTo syncPath ++ sent := by
  have hsearch : (searchPath entity == syncPath) = false :=
    beq_false_of_ne (searchPath_ne_syncPath entity)
  have hall : sent.filter (·.path == syncPath) = sent :=
    List.filter_eq_self.mpr fun request hrequest => beq_iff_eq.mpr (hsent request hrequest)
  rw [Recorded.requestsTo, h, List.filter_append, List.filter_append,
    List.filter_cons_of_neg (by simp [hsearch]), List.filter_nil, List.append_nil, hall]
  rfl

/-- A statement that succeeds sends the keys of the accepted rows. -/
theorem requestsTo_of_ok {ctx : Context} {accept : Row → StateM τ Bool}
    {s s' : Session (Recorded τ)} {t t' : TableHandle} {rows : List Row}
    {st : Session (Recorded τ) × TableHandle} {keys : List RecordKey} {n : Nat}
    (h : (deleteMatching ctx (onShop accept)).runFrom (s, t) = (.ok n, s', t'))
    (hscan : (scan ctx).runFrom (s, t) = (.ok rows, st))
    (hkeys : (selected rows (answersFrom accept rows st.1.api.shop)).mapM
      (BulkEditor.keyOf? t.definition) = some keys) (hsome : keys ≠ []) :
    s'.api.requestsTo syncPath
      = s.api.requestsTo syncPath ++ [BulkEditor.syncRequest t.definition keys] := by
  obtain ⟨s₁, t₁, _, store, _, chosen, keys', hscan', -, -, hchosen, -, hkeys', -, -, hsearch,
    hsent⟩ := deleteMatching_ok h
  rw [hscan] at hscan'
  obtain ⟨hrows, rfl⟩ := Prod.mk.inj hscan'
  obtain rfl := Except.ok.inj hrows
  rw [hchosen, hkeys] at hkeys'
  obtain rfl := Option.some.inj hkeys'
  rw [if_neg hsome] at hsent
  apply requestsTo_syncPath
  · rw [hsent, hsearch]
  · intro request hrequest
    obtain rfl := List.mem_singleton.mp hrequest
    rfl

/-- A delete statement over a table whose key has strings and integers addresses the records whose
rows it deletes. Whatever its outcome is, if the shop is sent a batch of changes, the batch deletes
one record for each row that is gone from the row store: the one that the row was made of, named
by just its values for the properties of the key. Each string names itself; an integer is named by
one that goes to the same number, which up to 2 ^ 53 is the integer itself. So only records that are
not told apart by their numbers have one name. -/
theorem deleteMatching_addresses {registered : String} {e : Entity} {isMapping : Bool}
    {ctx : Context} {accept : Row → StateM τ Bool} {s s' : Session (Recorded τ)}
    {t t' : TableHandle} {bytes : List UInt8} {answer : SearchAnswer}
    {result : Except TableError Nat} (htable : t.definition = .ofEntity registered e isMapping)
    (hproperties : ∀ name ∈ KeyList.keys e.properties, Text.lowerAscii name ≠ "rowid")
    (hanswer : ((Api.send ctx ⟨.post, searchPath t.definition.name, none⟩).runFrom s.api).1
      = .ok bytes)
    (hread : SearchAnswer.read? bytes = some answer)
    (hrecords : ∀ record ∈ answer.records, e.GivesKey record)
    (h : (deleteMatching ctx (onShop accept)).runFrom (s, t) = (result, s', t')) :
    (∃ cause, result = .error cause ∧ (scan ctx).runFrom (s, t) = (.error cause, s', t'))
      ∨ ∃ (s₁ : Session (Recorded τ)) (t₁ : TableHandle) (before after : RowStore)
          (recordOf : NumberedRow → KeyList Json) (removed : List NumberedRow)
          (sent : List Request),
        (scan ctx).runFrom (s, t) = (.ok before.rows, s₁, t₁)
        ∧ t₁.materialized? s₁ = some before ∧ t'.materialized? s' = some after
        -- each row was made of a record, and some of the rows are gone
        ∧ before.stored.map recordOf = answer.records
        ∧ (∀ r ∈ before.stored, t.definition.MadeOf (recordOf r) r.cells)
        ∧ (removed ++ after.stored).Perm before.stored
        -- the shop is told of these, if of anything
        ∧ s'.api.requestsTo syncPath = s.api.requestsTo syncPath ++ sent ∧ sent.length ≤ 1
        ∧ (∀ n, result = .ok n → n = removed.length ∧ (0 < n → sent ≠ []))
        ∧ (∀ request ∈ sent, ∃ keys, request.Deletes t.definition.name keys
            ∧ List.Forall₂ (fun r key => e.Names (recordOf r) key) removed keys)
        ∧ ∀ record ∈ answer.records, ∀ record' ∈ answer.records, ∀ key : RecordKey,
            e.Names record key → e.Names record' key → e.SameKey record record' := by
  have hshown : RowStore.NumbersShown t.definition.columns := by
    intro c hc
    rw [htable] at hc
    exact hproperties c.name (TableDefinition.column_ofEntity hc).1
  obtain hfail | ⟨s₁, t₁, before, after, chosen, keys, sent, hscan, hbefore, hafter, hreceived,
    hchosen, hkeys, hfold, hsent, hdone⟩ := deleteMatching_cases h
  · exact .inl hfail
  right
  obtain ⟨bytes', answer', inserted, store, hsend, hread', hinserted, hfilled, hstores, rfl,
    hrows⟩ := scan_ok hscan
  -- the answer and the row store are those of the scan
  rw [hsend] at hanswer
  obtain rfl := Except.ok.inj hanswer
  obtain rfl := Option.some.inj (hread.symm.trans hread')
  obtain rfl : store = before := by
    rw [materialized?, Option.bind_some, Session.store?, hstores,
      List.getElem?_concat_length] at hbefore
    exact Option.some.inj hbefore
  have hsound : ∀ record ∈ answer.records,
      KeyList.Sorted record ∧ Json.SoundFields (Json.maxDepth - 3) record :=
    fun _ hrecord => SearchAnswer.sound_of_read? hread hrecord
  obtain ⟨recordOf, hmap, hmade⟩ := hfilled.exists_recordOf
    (fun record hrecord => (hsound record hrecord).1.nodup_keys) hinserted
  have hmem : ∀ r ∈ store.stored, recordOf r ∈ answer.records := fun r hr =>
    hmap ▸ List.mem_map_of_mem hr
  obtain ⟨removed, hperm, hnamed⟩ := hfilled.exists_removed_named htable hshown hmade
    (fun r hr => hrecords _ (hmem r hr)) (fun r hr => (hsound _ (hmem r hr)).2)
    (hchosen.trans (selected_sublist _ _)).subset hkeys hfold
  have hlength : removed.length = chosen.length := by
    rw [hnamed.length_eq, (forall₂_of_mapM_some hkeys).length_eq]
  have hpath : ∀ request ∈ sent, request = BulkEditor.syncRequest t.definition keys := by
    rcases hsent with rfl | rfl
    · exact fun request hrequest => absurd hrequest List.not_mem_nil
    · exact fun request hrequest => List.mem_singleton.mp hrequest
  have hrequests : s'.api.requestsTo syncPath = s.api.requestsTo syncPath ++ sent := by
    apply requestsTo_syncPath
    · rw [hreceived, Recorded.received_of_ok hsend]
    · intro request hrequest
      rw [hpath request hrequest]
      rfl
  refine ⟨s₁, _, store, after, recordOf, removed, sent, hscan, hbefore, hafter, hmap, hmade, hperm,
    hrequests, ?_, fun n hn => ?_, fun request hrequest => ?_,
    fun record hrecord record' hrecord' key hnames hnames' =>
      hnames.sameKey hnames' (hrecords record hrecord) (hrecords record' hrecord')⟩
  · rcases hsent with rfl | rfl
    · exact Nat.zero_le 1
    · exact Nat.le_refl 1
  · obtain ⟨rfl, -, hmade⟩ := hdone n hn
    refine ⟨hlength.symm, fun hpos => ?_⟩
    have hsome : keys ≠ [] := by
      rw [ne_eq, ← List.length_eq_zero_iff, ← hnamed.length_eq, hlength]
      exact Nat.ne_of_gt hpos
    rw [hmade, if_neg hsome]
    exact List.cons_ne_nil _ _
  · rw [hpath request hrequest]
    exact ⟨keys, BulkEditor.deletes_syncRequest t.definition
      (BulkEditor.sorted_of_mapM_keyOf? hkeys), hnamed⟩

/-! ### Numbered products -/

/-- Products that are known by a number. -/
def numberedEntity : Entity where
  name := "product"
  properties := [("id", (Property.ofKind "int").markPrimary)]

def numberedHandle : TableHandle where
  definition := .ofEntity "product" numberedEntity false
  partitionCount := 2

/-- A store of numbered products, in two partitions. -/
def numberedStore (numbers : List NumberedRow) : RowStore where
  name := "product"
  columns := numberedHandle.definition.columns
  partitionCount := 2
  partitionCount_pos := Nat.two_pos
  stored := numbers
  savepoints := []

/-- The product that has the last number up to which each has a text of its own is told by it. -/
theorem deleteMatching_addresses_last :
    ∃ s' t', (deleteMatching ⟨"q"⟩ (onShop fun _ => pure true)).runFrom
          (offering [[("id", .ofInt 9007199254740992)]], numberedHandle) = (.ok 1, s', t')
      ∧ ∃ request key, s'.api.requestsTo syncPath = [request]
        ∧ request.document? = some (.object [("delete-product", .object
            [("action", .string "delete"), ("entity", .string "product"),
              ("payload", .array [.object (key.map fun (name, text) => (name, .string text))])])])
        ∧ KeyList.keys key = ["id"] ∧ key.get? "id" = some "9007199254740992" := by
  have hread : SearchAnswer.read?
        (SearchAnswer.answerDocument [[("id", .ofInt 9007199254740992)]] 1).bytes
      = some ⟨some 1, [[("id", .ofInt 9007199254740992)]]⟩ :=
    SearchAnswer.read?_answerDocument (by decide) (by decide)
      (by simp [Json.ReadableFields, Json.Readable, Json.ofInt])
  have hstore : Session.storeOf numberedHandle.definition 2 [[("id", .ofInt 9007199254740992)]]
      = .ok (numberedStore [⟨1, [.real (.ofInt 9007199254740992)]⟩]) := rfl
  have hscan := runFrom_scan ⟨"q"⟩ (s := offering [[("id", .ofInt 9007199254740992)]])
    (t := numberedHandle) rfl hread hstore
  obtain ⟨s', t', hrun⟩ : ∃ s' t', (deleteMatching ⟨"q"⟩ (onShop fun _ => pure true)).runFrom
        (offering [[("id", .ofInt 9007199254740992)]], numberedHandle) = (.ok 1, s', t') :=
    ⟨_, _, (Step.runFrom_bind_of_ok hscan).trans rfl⟩
  refine ⟨s', t', hrun, ?_⟩
  have hgives : ∀ record ∈ [[("id", Json.ofInt 9007199254740992)]],
      numberedEntity.GivesKey record := by
    intro record hrecord f hf
    obtain rfl := List.mem_singleton.mp hrecord
    obtain rfl : f = ("id", (Property.ofKind "int").markPrimary) := List.mem_singleton.mp hf
    exact ⟨_, rfl, .integer rfl _⟩
  obtain ⟨_, hfail, -⟩ | ⟨_, _, _, _, recordOf, removed, sent, -, -, -, hmap, -, hperm, hrequests,
    hone, hdone, htold, -⟩ := deleteMatching_addresses (e := numberedEntity)
      (s := offering [[("id", .ofInt 9007199254740992)]]) (t := numberedHandle) rfl (by decide) rfl
      hread hgives hrun
  · cases hfail
  obtain ⟨hcount, hsent⟩ := hdone 1 rfl
  obtain ⟨r, rfl⟩ := List.length_eq_one_iff.mp hcount.symm
  obtain ⟨request, rfl⟩ : ∃ request, sent = [request] :=
    List.length_eq_one_iff.mp
      (Nat.le_antisymm hone (List.length_pos_iff.mpr (hsent Nat.one_pos)))
  obtain ⟨keys, ⟨-, -, v, hdocument, entity, hname, rfl⟩, hnamed⟩ :=
    htold request (List.mem_singleton_self request)
  obtain rfl : entity = "product" := hname.unique (by decide)
  obtain ⟨key, _, hnames, hnil, rfl⟩ := List.forall₂_cons_left_iff.mp hnamed
  obtain rfl := List.forall₂_nil_left_iff.mp hnil
  have hrecord : recordOf r = [("id", .ofInt 9007199254740992)] := by
    have hmem := List.mem_map_of_mem (f := recordOf)
      (hperm.subset (List.mem_append_left _ (List.mem_singleton_self r)))
    rw [hmap] at hmem
    exact List.mem_singleton.mp hmem
  rw [hrecord] at hnames
  refine ⟨request, key, hrequests, hdocument, List.perm_singleton.mp hnames.names, ?_⟩
  obtain ⟨v, text, hv, htext, hnamedBy⟩ := hnames.texts _ (List.mem_singleton_self _)
  obtain rfl : Json.ofInt 9007199254740992 = v := Option.some.inj hv
  rw [htext]
  cases hnamedBy with
  | @integer _ j hnearest hexact =>
    obtain rfl := hexact (Nat.le_refl _)
    decide

/-- Beyond, two products with different numbers are told by one text. -/
theorem deleteMatching_misnames_number :
    ∃ s' t', (deleteMatching ⟨"q"⟩ (onShop fun _ => pure true)).runFrom
          (offering [[("id", .ofInt 9007199254740992)], [("id", .ofInt 9007199254740993)]],
            numberedHandle) = (.ok 2, s', t')
      ∧ ∃ request, s'.api.requestsTo syncPath = [request]
        ∧ request.document? = some (.object [("delete-product", .object
            [("action", .string "delete"), ("entity", .string "product"),
              ("payload", .array [.object [("id", .string "9007199254740992")],
                .object [("id", .string "9007199254740992")]])])]) := by
  have hread : SearchAnswer.read? (SearchAnswer.answerDocument
        [[("id", .ofInt 9007199254740992)], [("id", .ofInt 9007199254740993)]] 2).bytes
      = some ⟨some 2, [[("id", .ofInt 9007199254740992)], [("id", .ofInt 9007199254740993)]]⟩ :=
    SearchAnswer.read?_answerDocument (by decide) (by decide)
      (by simp [Json.ReadableFields, Json.Readable, Json.ofInt])
  have hstore : Session.storeOf numberedHandle.definition 2
        [[("id", .ofInt 9007199254740992)], [("id", .ofInt 9007199254740993)]]
      = .ok (numberedStore [⟨1, [.real (.ofInt 9007199254740992)]⟩,
          ⟨2, [.real (.ofInt 9007199254740993)]⟩]) := rfl
  have hscan := runFrom_scan ⟨"q"⟩
    (s := offering [[("id", .ofInt 9007199254740992)], [("id", .ofInt 9007199254740993)]])
    (t := numberedHandle) rfl hread hstore
  obtain ⟨s', t', hrun⟩ : ∃ s' t', (deleteMatching ⟨"q"⟩ (onShop fun _ => pure true)).runFrom
        (offering [[("id", .ofInt 9007199254740992)], [("id", .ofInt 9007199254740993)]],
          numberedHandle) = (.ok 2, s', t') :=
    ⟨_, _, (Step.runFrom_bind_of_ok hscan).trans rfl⟩
  have hkeys : [[Value.double (.ofInt 9007199254740992)],
          [.double (.ofInt 9007199254740993)]].mapM (BulkEditor.keyOf? numberedHandle.definition)
      = some [[("id", "9007199254740992")], [("id", "9007199254740992")]] := by decide +kernel
  refine ⟨s', t', hrun, _, requestsTo_of_ok hrun hscan hkeys (List.cons_ne_nil _ _),
    BulkEditor.document?_syncRequest numberedHandle.definition ?_⟩
  simp only [List.forall_mem_cons, List.not_mem_nil, false_imp_iff, forall_const, and_true,
    and_self]
  exact List.pairwise_singleton _ _

end TableHandle

end ShopTables
