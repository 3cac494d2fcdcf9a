import ShopTables.Proofs.Table.Usage

/-!
# Handles do not disturb one another

```
    handles   0: memory 3     1: memory 1     2: not read
    deleters  0: of handle 0, store 0         1: of handle 0, store 3
    stores    0   1   2   3
    owner     0   1   0   0
```

Every row store belongs to the handle whose reading added it. A handle shows the last of its own,
and a deleter works on one of those of the handle it was opened with (`Usage.Owned`). What a call
can change is said once (`Usage.Change`), and so neither reading another handle nor working with its
deleters changes what a handle shows (`Usage.Change.frame`); and what was read after a deleter was
opened is out of that deleter's reach (`Usage.Newer`). What a scan gives depends on nothing but the
table and the answer of the shop (`Usage.reads_kept_apart`).
-/

namespace ShopTables

/-! ### Items of a list that was changed in one place -/

section

variable {α : Type} {l : List α} {a b : α} {i j : Nat}

theorem getElem?_concat_of_some (a : α) (h : l[i]? = some b) : (l ++ [a])[i]? = some b := by
  rw [List.getElem?_append_left (List.getElem?_eq_some_iff.mp h).1, h]

theorem of_getElem?_concat (h : (l ++ [a])[i]? = some b) : l[i]? = some b ∨ b = a := by
  rw [List.getElem?_append] at h
  split_ifs at h
  · exact .inl h
  · exact .inr (List.mem_singleton.mp (List.mem_of_getElem? h))

theorem of_getElem?_set (h : (l.set i a)[j]? = some b) :
    (i = j ∧ b = a) ∨ (i ≠ j ∧ l[j]? = some b) := by
  by_cases hij : i = j
  · subst hij
    have hlt := (List.getElem?_eq_some_iff.mp h).1
    rw [List.length_set] at hlt
    rw [List.getElem?_set_self hlt] at h
    exact .inl ⟨rfl, (Option.some.inj h).symm⟩
  · rw [List.getElem?_set_ne hij] at h
    exact .inr ⟨hij, h⟩

end

/-! ### Editors change one row store -/

namespace Session

variable {σ : Type} {number : Nat} {s s' s'' : Session σ}

/-- Two sessions have the same row stores but for that of one number. -/
structure SameButFor (number : Nat) (s s' : Session σ) : Prop where
  length : s'.stores.length = s.stores.length
  others : ∀ m, m ≠ number → s'.store? m = s.store? m

theorem SameButFor.of_stores (h : s'.stores = s.stores) : SameButFor number s s' :=
  ⟨by rw [h], fun m _ => by rw [store?, store?, h]⟩

theorem SameButFor.trans (h : SameButFor number s s') (h' : SameButFor number s' s'') :
    SameButFor number s s'' :=
  ⟨h'.length.trans h.length, fun m hm => (h'.others m hm).trans (h.others m hm)⟩

theorem sameButFor_setStore (s : Session σ) (number : Nat) (store : RowStore) :
    SameButFor number s (s.setStore number store) :=
  ⟨List.length_set, fun _ hm => List.getElem?_set_ne hm.symm⟩

end Session

namespace BulkEditor

variable {σ α β : Type}

/-- A step of an editor changes no row store but the editor's, which stays the editor's. -/
def Local (x : Step TableError (Session σ × BulkEditor) α) : Prop :=
  ∀ s e, Session.SameButFor e.store s (x.runFrom (s, e)).2.1
    ∧ (x.runFrom (s, e)).2.2.store = e.store

theorem Local.bind {x : Step TableError (Session σ × BulkEditor) α}
    {f : α → Step TableError (Session σ × BulkEditor) β} (hx : Local x) (hf : ∀ a, Local (f a)) :
    Local (x >>= f) := by
  intro s e
  obtain ⟨hs, he⟩ := hx s e
  rw [Step.runFrom_bind]
  rcases hrun : x.runFrom (s, e) with ⟨r, s₁, e₁⟩
  rw [hrun] at hs he
  cases r with
  | error cause => exact ⟨hs, he⟩
  | ok a =>
    obtain ⟨hs', he'⟩ := hf a s₁ e₁
    rw [show e₁.store = e.store from he] at hs' he'
    exact ⟨hs.trans hs', he'⟩

theorem Local.attempt {x : Step TableError (Session σ × BulkEditor) α} (hx : Local x) :
    Local x.attempt := hx

theorem local_ofExcept (r : Except TableError α) :
    Local (Step.ofExcept r : Step TableError (Session σ × BulkEditor) α) :=
  fun _ _ => ⟨.of_stores rfl, rfl⟩

theorem local_modifyPending (f : List RecordKey → List RecordKey) :
    Local (modifyPending f : Step TableError (Session σ × BulkEditor) Unit) :=
  fun _ _ => ⟨.of_stores rfl, rfl⟩

theorem local_keyOf (row : Row) :
    Local (keyOf row : Step TableError (Session σ × BulkEditor) RecordKey) := by
  intro s e
  rw [keyOf, Step.runFrom_ofFn]
  dsimp only
  cases keyOf? e.definition row with
  | none => exact ⟨.of_stores rfl, rfl⟩
  | some key => exact ⟨.of_stores rfl, rfl⟩

theorem local_onStore (x : Step StoreError (RowStore × LocalDeleter) Unit) :
    Local (onStore x : Step TableError (Session σ × BulkEditor) Unit) := by
  intro s e
  rw [onStore, Step.runFrom_ofFn]
  dsimp only
  cases s.store? e.store with
  | none => exact ⟨.of_stores rfl, rfl⟩
  | some store => exact ⟨Session.sameButFor_setStore s e.store _, rfl⟩

variable [Api σ]

theorem local_flush (ctx : Context) :
    Local (flush ctx : Step TableError (Session σ × BulkEditor) Unit) := by
  intro s e
  rw [flush, Step.runFrom_ofFn]
  dsimp only
  cases e.pending.isEmpty with
  | true => exact ⟨.of_stores rfl, rfl⟩
  | false => exact ⟨.of_stores rfl, rfl⟩

/-- Whatever call an editor takes, it changes no row store but its own. -/
theorem local_call (ctx : Context) (call : EditorCall) :
    Local (call.run ctx : Step TableError (Session σ × BulkEditor) Unit) := by
  cases call with
  | begin => exact (local_modifyPending _).bind fun _ => local_onStore _
  | delete row =>
    exact (local_keyOf row).bind fun _ => (local_onStore _).bind fun _ => local_modifyPending _
  | discard cause => exact (local_modifyPending _).bind fun _ => local_onStore _
  | complete => exact local_onStore _
  | close =>
    exact (local_flush ctx).attempt.bind fun _ => (local_onStore _).attempt.bind fun _ =>
      local_ofExcept _

end BulkEditor

/-! ### What a call can change -/

namespace UsageCall

variable {σ : Type}

/-- The handle that a call goes to, or that the deleter it goes to was opened with. -/
def handle? (u : Usage σ) : UsageCall σ → Option Nat
  | .shop _ | .lookUp _ => none
  | .fresh i | .schema i | .materialized i | .partitions _ i | .partitionRows i _ | .scan _ i
  | .openDeleter i => some i
  | .edit _ k _ => (u.deleters[k]?).map (·.1)

end UsageCall

namespace Usage

variable {σ : Type} {db : Database} {u u' : Usage σ} {who : Option Nat} {i j k : Nat}
  {t : TableHandle}

/-- What becomes of handles, deleters and row stores in a call that goes to the handle `who`. -/
inductive Change (db : Database) (u : Usage σ) : Option Nat → Usage σ → Prop where
  | none (who : Option Nat) (api : σ) :
    Change db u who { u with session := { u.session with api } }
  | newHandle (who : Option Nat) (t : TableHandle) (unread : t.memory = .none)
      (count : t.partitionCount = db.partitionCount
        ∨ ∃ t₀ ∈ u.handles, t.partitionCount = t₀.partitionCount) :
    Change db u who { u with handles := u.handles ++ [t] }
  | read {i : Nat} {t : TableHandle} (ht : u.handles[i]? = some t) (api : σ) (store : RowStore) :
    Change db u (some i)
      { u with
        session := ⟨api, u.session.stores ++ [store]⟩
        handles := u.handles.set i { t with memory := some u.session.stores.length } }
  | newDeleter {i number : Nat} {t : TableHandle} (ht : u.handles[i]? = some t)
      (hnumber : t.memory = some number) :
    Change db u (some i)
      { u with
        deleters := u.deleters ++ [(i, { definition := t.definition, store := number })] }
  | edited {k i : Nat} {e e' : BulkEditor} {s : Session σ} (he : u.deleters[k]? = some (i, e))
      (hs : Session.SameButFor e.store u.session s) (hstore : e'.store = e.store) :
    Change db u (some i)
      { session := s, handles := u.handles, deleters := u.deleters.set k (i, e') }

theorem Change.refl (db : Database) (u : Usage σ) (who : Option Nat) : Change db u who u :=
  .none who u.session.api

/-- Reading a handle adds a row store and moves the handle to it, or nothing but the shop has
changed. -/
theorem change_of_reading [Api σ] {α : Type} (db : Database) (answer : α → UsageAnswer)
    (ctx : Context) (shown : RowStore → α) {x : Step TableError (Session σ × TableHandle) α}
    (hx : ∀ s t, x.runFrom (s, t) = TableHandle.reading ctx shown s t) (u : Usage σ) (i : Nat) :
    Change db u (some i) (u.onHandle answer x i).2 := by
  cases ht : u.handles[i]? with
  | none =>
    rw [onHandle, ht]
    exact .refl db u _
  | some t =>
    rw [onHandle_of_some answer x ht, hx, TableHandle.reading]
    cases t.definition.storeOfAnswer t.partitionCount (u.session.answer ctx t.definition) with
    | error e =>
      dsimp only
      rw [set_handle ht]
      exact .none _ _
    | ok store => exact .read ht _ store

/-- Whatever call is made, this is what becomes of handles, deleters and row stores. -/
theorem change_of_run [Api σ] (db : Database) (c : UsageCall σ) (u : Usage σ) :
    Change db u (c.handle? u) (c.run db u).2 := by
  cases c with
  | shop change => exact .none _ _
  | lookUp name =>
    rw [UsageCall.run, Database.openTable]
    cases KeyList.get? db.tables (Text.lowerAscii name) with
    | none => exact .refl db u _
    | some d => exact .newHandle _ _ rfl (.inl rfl)
  | fresh i =>
    rw [UsageCall.run]
    cases ht : u.handles[i]? with
    | none => exact .refl db u _
    | some t => exact .newHandle _ _ rfl (.inr ⟨t, List.mem_of_getElem? ht, rfl⟩)
  | schema i =>
    rw [UsageCall.run]
    cases u.handles[i]? with
    | none => exact .refl db u _
    | some t => exact .refl db u _
  | materialized i =>
    rw [UsageCall.run]
    cases u.handles[i]? with
    | none => exact .refl db u _
    | some t => exact .refl db u _
  | partitions ctx i =>
    exact change_of_reading db _ ctx _ (TableHandle.runFrom_partitions ctx) u i
  | partitionRows i partition =>
    rw [UsageCall.run]
    cases ht : u.handles[i]? with
    | none =>
      rw [onHandle, ht]
      exact .refl db u _
    | some t =>
      rw [onHandle_of_some _ _ ht, TableHandle.runFrom_partitionRows_snd]
      dsimp only
      rw [set_handle ht]
      exact .refl db u _
  | scan ctx i => exact change_of_reading db _ ctx _ (TableHandle.runFrom_scan_eq ctx) u i
  | openDeleter i =>
    rw [UsageCall.run]
    cases ht : u.handles[i]? with
    | none => exact .refl db u _
    | some t =>
      dsimp only
      rw [TableHandle.openDeleter, Step.runFrom_ofFn]
      dsimp only
      cases hmemory : t.memory with
      | none =>
        dsimp only
        rw [set_handle ht]
        exact .refl db u _
      | some number =>
        dsimp only
        rw [set_handle ht]
        exact .newDeleter ht hmemory
  | edit ctx k call =>
    rw [UsageCall.run, UsageCall.handle?]
    cases he : u.deleters[k]? with
    | none => exact .refl db u _
    | some p =>
      obtain ⟨i, e⟩ := p
      obtain ⟨hs, hstore⟩ := BulkEditor.local_call ctx call u.session e
      exact .edited he hs hstore

/-! ### Every row store belongs to a handle -/

/-- Who read each row store: the one that a handle shows was read by it, and the one that a deleter
works on was read by the handle it was opened with. All handles have the partitions of the
database. -/
structure Owned (db : Database) (owner : List Nat) (u : Usage σ) : Prop where
  length : owner.length = u.session.stores.length
  memory : ∀ (j : Nat) (t : TableHandle) (number : Nat), u.handles[j]? = some t →
    t.memory = some number → owner[number]? = some j
  deleters : ∀ (k i : Nat) (e : BulkEditor), u.deleters[k]? = some (i, e) →
    owner[e.store]? = some i
  count : ∀ t ∈ u.handles, t.partitionCount = db.partitionCount

theorem owned_start (db : Database) (api : σ) : Owned db [] (start api) where
  length := rfl
  memory _ _ _ h := (List.not_mem_nil (List.mem_of_getElem? h)).elim
  deleters _ _ _ h := (List.not_mem_nil (List.mem_of_getElem? h)).elim
  count _ h := (List.not_mem_nil h).elim

/-- A row store that is added belongs to the handle that was read, and no other changes hands. -/
theorem Owned.change {owner : List Nat} (h : Owned db owner u) (hc : Change db u who u') :
    ∃ owner', Owned db owner' u' := by
  cases hc with
  | none _ api => exact ⟨owner, h.length, h.memory, h.deleters, h.count⟩
  | newHandle _ t unread count =>
    refine ⟨owner, h.length, fun j t' number ht hnumber => ?_, h.deleters, fun t' ht => ?_⟩
    · rcases of_getElem?_concat ht with ht | rfl
      · exact h.memory j t' number ht hnumber
      · rw [unread] at hnumber
        cases hnumber
    · rcases List.mem_append.mp ht with ht | ht
      · exact h.count t' ht
      · obtain rfl := List.mem_singleton.mp ht
        obtain hcount | ⟨t₀, ht₀, hcount⟩ := count
        · exact hcount
        · exact hcount.trans (h.count t₀ ht₀)
  | @read i t ht api store =>
    refine ⟨owner ++ [i], ?_, fun j t' number ht' hnumber => ?_, fun k j e he => ?_,
      fun t' ht' => ?_⟩
    · rw [List.length_append, List.length_append, h.length]
      rfl
    · rcases of_getElem?_set ht' with ⟨rfl, rfl⟩ | ⟨-, ht'⟩
      · obtain rfl := Option.some.inj hnumber
        rw [← h.length, List.getElem?_concat_length]
      · exact getElem?_concat_of_some i (h.memory j t' number ht' hnumber)
    · exact getElem?_concat_of_some i (h.deleters k j e he)
    · rcases List.mem_or_eq_of_mem_set ht' with ht' | rfl
      · exact h.count t' ht'
      · exact h.count t (List.mem_of_getElem? ht)
  | @newDeleter i number t ht hnumber =>
    refine ⟨owner, h.length, h.memory, fun k j e he => ?_, h.count⟩
    rcases of_getElem?_concat he with he | he
    · exact h.deleters k j e he
    · obtain ⟨rfl, rfl⟩ := Prod.mk.inj he
      exact h.memory j t number ht hnumber
  | @edited k i e e' s he hs hstore =>
    refine ⟨owner, h.length.trans hs.length.symm, h.memory, fun k' j e₁ he₁ => ?_, h.count⟩
    rcases of_getElem?_set he₁ with ⟨-, he₁⟩ | ⟨-, he₁⟩
    · obtain ⟨rfl, rfl⟩ := Prod.mk.inj he₁
      rw [hstore]
      exact h.deleters k j e he
    · exact h.deleters k' j e₁ he₁

/-- A call that does not go to a handle leaves it alone, and the row store that it shows. -/
theorem Change.frame {owner : List Nat} (h : Owned db owner u) (hc : Change db u who u')
    (ht : u.handles[j]? = some t) (hj : who ≠ some j) :
    u'.handles[j]? = some t ∧ t.materialized? u'.session = t.materialized? u.session := by
  have hshown : ∀ s : Session σ,
      (∀ number, owner[number]? = some j → s.store? number = u.session.store? number) →
        t.materialized? s = t.materialized? u.session := by
    intro s hs
    rw [TableHandle.materialized?, TableHandle.materialized?]
    cases hmemory : t.memory with
    | none => rfl
    | some number => exact hs number (h.memory j t number ht hmemory)
  cases hc with
  | none _ api => exact ⟨ht, rfl⟩
  | newHandle _ t' unread count => exact ⟨getElem?_concat_of_some t' ht, rfl⟩
  | @read i t' ht' api store =>
    have hij : i ≠ j := fun hij => hj (congrArg some hij)
    refine ⟨(List.getElem?_set_ne hij).trans ht, hshown _ fun number howner => ?_⟩
    have hlt : number < u.session.stores.length :=
      h.length ▸ (List.getElem?_eq_some_iff.mp howner).1
    exact List.getElem?_append_left hlt
  | newDeleter ht' hnumber => exact ⟨ht, rfl⟩
  | @edited k i e e' s he hs hstore =>
    -- the editor works on a row store of another handle
    refine ⟨ht, hshown _ fun number howner => hs.others number fun hsame => hj ?_⟩
    rw [← h.deleters k i e he, ← hsame, howner]

/-! ### Row stores that are newer than a deleter -/

/-- A deleter was opened, and a handle read, before and after there were so many row stores. -/
structure Newer (number k i : Nat) (u : Usage σ) : Prop where
  deleter : ∃ j e, u.deleters[k]? = some (j, e) ∧ e.store < number
  handle : ∃ t shown, u.handles[i]? = some t ∧ t.memory = some shown ∧ number ≤ shown
  room : number ≤ u.session.stores.length

theorem Newer.change {number : Nat} (h : Newer number k i u) (hc : Change db u who u') :
    Newer number k i u' := by
  obtain ⟨⟨j, e, he, hlt⟩, ⟨t, shown, ht, hmemory, hle⟩, hroom⟩ := h
  cases hc with
  | none _ api => exact ⟨⟨j, e, he, hlt⟩, ⟨t, shown, ht, hmemory, hle⟩, hroom⟩
  | newHandle _ t' unread count =>
    exact ⟨⟨j, e, he, hlt⟩, ⟨t, shown, getElem?_concat_of_some t' ht, hmemory, hle⟩, hroom⟩
  | @read i' t' ht' api store =>
    refine ⟨⟨j, e, he, hlt⟩, ?_, ?_⟩
    · by_cases hi : i' = i
      · -- read again, the handle has a row store that is newer still
        subst hi
        exact ⟨_, u.session.stores.length,
          List.getElem?_set_self (List.getElem?_eq_some_iff.mp ht).1, rfl, hroom⟩
      · exact ⟨t, shown, (List.getElem?_set_ne hi).trans ht, hmemory, hle⟩
    · rw [List.length_append]
      omega
  | newDeleter ht' hnumber =>
    exact ⟨⟨j, e, getElem?_concat_of_some _ he, hlt⟩, ⟨t, shown, ht, hmemory, hle⟩, hroom⟩
  | @edited k' i' e₁ e' s he₁ hs hstore =>
    refine ⟨?_, ⟨t, shown, ht, hmemory, hle⟩, hroom.trans_eq hs.length.symm⟩
    by_cases hk : k' = k
    · subst hk
      obtain ⟨rfl, rfl⟩ := Prod.mk.inj (Option.some.inj (he.symm.trans he₁))
      exact ⟨j, e', List.getElem?_set_self (List.getElem?_eq_some_iff.mp he).1, hstore ▸ hlt⟩
    · exact ⟨j, e, (List.getElem?_set_ne hk).trans he, hlt⟩

/-! ### Runs -/

variable [Api σ]

/-- What is in use of a database after these calls. -/
def after (db : Database) (api : σ) (calls : List (UsageCall σ)) : Usage σ :=
  (runAll (UsageCall.run db) calls (start api)).2

/-- None of the calls goes to a handle, or to a deleter that was opened with it. -/
def Away (db : Database) (j : Nat) : List (UsageCall σ) → Usage σ → Prop
  | [], _ => True
  | c :: cs, u => c.handle? u ≠ some j ∧ Away db j cs (c.run db u).2

/-- A handle shows the same row store, and gives the same rows of each partition. -/
def ShowsSame (db : Database) (i : Nat) (u u' : Usage σ) : Prop :=
  ((UsageCall.materialized i).run db u').1 = ((UsageCall.materialized i).run db u).1
    ∧ ∀ partition, ((UsageCall.partitionRows i partition).run db u').1
        = ((UsageCall.partitionRows i partition).run db u).1

/-- Reading a handle for its partitions or for a scan succeeds. -/
def HasRead (db : Database) (ctx : Context) (i : Nat) (u u' : Usage σ) : Prop :=
  (∃ indices, (UsageCall.partitions ctx i).run db u = (.partitions indices, u'))
    ∨ ∃ rows, (UsageCall.scan ctx i).run db u = (.rows rows, u')

theorem exists_owned_runAll {owner : List Nat} (h : Owned db owner u) (calls : List (UsageCall σ)) :
    ∃ owner', Owned db owner' (runAll (UsageCall.run db) calls u).2 := by
  induction calls generalizing u owner with
  | nil => exact ⟨owner, h⟩
  | cons c cs ih =>
    obtain ⟨owner₁, h₁⟩ := h.change (change_of_run db c u)
    exact ih h₁

theorem exists_owned_after (db : Database) (api : σ) (calls : List (UsageCall σ)) :
    ∃ owner, Owned db owner (after db api calls) :=
  exists_owned_runAll (owned_start db api) calls

/-- Calls that go elsewhere leave a handle alone, and the row store that it shows. -/
theorem frame_runAll {owner : List Nat} (h : Owned db owner u) (ht : u.handles[j]? = some t)
    {calls : List (UsageCall σ)} (haway : Away db j calls u) :
    (runAll (UsageCall.run db) calls u).2.handles[j]? = some t
      ∧ t.materialized? (runAll (UsageCall.run db) calls u).2.session
          = t.materialized? u.session := by
  induction calls generalizing u owner with
  | nil => exact ⟨ht, rfl⟩
  | cons c cs ih =>
    obtain ⟨hc, hcs⟩ := haway
    have hchange := change_of_run db c u
    obtain ⟨owner₁, h₁⟩ := h.change hchange
    obtain ⟨ht₁, hsame⟩ := hchange.frame h ht hc
    obtain ⟨ht₂, hsame₂⟩ := ih h₁ ht₁ hcs
    exact ⟨ht₂, hsame₂.trans hsame⟩

theorem Newer.runAll {number : Nat} (h : Newer number k i u) (calls : List (UsageCall σ)) :
    Newer number k i (ShopTables.runAll (UsageCall.run db) calls u).2 := by
  induction calls generalizing u with
  | nil => exact h
  | cons c cs ih => exact ih (h.change (change_of_run db c u))

/-- What a handle shows depends on its row store only. -/
theorem showsSame_of_materialized? (ht : u.handles[i]? = some t) (ht' : u'.handles[i]? = some t)
    (h : t.materialized? u'.session = t.materialized? u.session) : ShowsSame db i u u' := by
  constructor
  · rw [UsageCall.run, UsageCall.run, ht, ht']
    dsimp only
    rw [h]
  · intro partition
    rw [UsageCall.run, UsageCall.run, onHandle_of_some _ _ ht, onHandle_of_some _ _ ht',
      TableHandle.partitionRows, Step.runFrom_ofFn, Step.runFrom_ofFn]
    dsimp only
    rw [h]
    cases t.materialized? u.session with
    | none => rfl
    | some store => rfl

/-- What a scan gives is made of the answer. -/
theorem fst_run_scan (ht : u.handles[i]? = some t) (ctx : Context) :
    ((UsageCall.scan ctx i).run db u).1
      = .ofExcept .rows ((t.definition.storeOfAnswer t.partitionCount
          (u.session.answer ctx t.definition)).map RowStore.rows) := by
  rw [UsageCall.run, onHandle_of_some _ _ ht, TableHandle.runFrom_scan_eq, TableHandle.fst_reading]

/-- A reading that succeeds adds a row store, and moves the handle to it. -/
theorem eq_of_reading_ok {α : Type} {answer : α → UsageAnswer} {a : α} {ctx : Context}
    {shown : RowStore → α} {x : Step TableError (Session σ × TableHandle) α}
    (hx : ∀ s t, x.runFrom (s, t) = TableHandle.reading ctx shown s t)
    (hknown : answer a ≠ .unknown) (hgiven : ∀ e, answer a ≠ .failed e)
    (h : u.onHandle answer x i = (answer a, u')) :
    ∃ t api store, u.handles[i]? = some t
      ∧ u' = { u with
          session := ⟨api, u.session.stores ++ [store]⟩
          handles := u.handles.set i { t with memory := some u.session.stores.length } } := by
  cases ht : u.handles[i]? with
  | none =>
    rw [onHandle, ht] at h
    exact absurd (Prod.mk.inj h).1.symm hknown
  | some t =>
    rw [onHandle_of_some answer x ht, hx, TableHandle.reading] at h
    cases hstore : t.definition.storeOfAnswer t.partitionCount
        (u.session.answer ctx t.definition) with
    | error e =>
      rw [hstore] at h
      exact absurd (Prod.mk.inj h).1.symm (hgiven e)
    | ok store =>
      rw [hstore] at h
      exact ⟨t, _, store, rfl, (Prod.mk.inj h).2.symm⟩

/-- A deleter that is there when a handle is read is older than what is read. -/
theorem newer_of_hasRead {owner : List Nat} (h : Owned db owner u) {ctx : Context}
    (hread : HasRead db ctx i u u') (hk : k < u.deleters.length) :
    Newer u.session.stores.length k i u' := by
  obtain ⟨t, api, store, ht, rfl⟩ : ∃ t api store, u.handles[i]? = some t
      ∧ u' = { u with
          session := ⟨api, u.session.stores ++ [store]⟩
          handles := u.handles.set i { t with memory := some u.session.stores.length } } := by
    rcases hread with ⟨indices, hrun⟩ | ⟨rows, hrun⟩
    · exact eq_of_reading_ok (TableHandle.runFrom_partitions ctx) (by nofun) (by nofun) hrun
    · exact eq_of_reading_ok (TableHandle.runFrom_scan_eq ctx) (by nofun) (by nofun) hrun
  have he : u.deleters[k]? = some u.deleters[k] := List.getElem?_eq_getElem hk
  have howner := h.deleters k u.deleters[k].1 u.deleters[k].2 he
  refine ⟨⟨_, _, he, h.length ▸ (List.getElem?_eq_some_iff.mp howner).1⟩,
    ⟨_, _, List.getElem?_set_self (List.getElem?_eq_some_iff.mp ht).1, rfl, Nat.le_refl _⟩, ?_⟩
  rw [List.length_append]
  exact Nat.le_add_right _ _

/-- An older deleter changes neither what a handle shows nor any row store that is newer. -/
theorem Newer.edit {number : Nat} (h : Newer number k i u) (ctx : Context) (call : EditorCall) :
    ShowsSame db i u ((UsageCall.edit ctx k call).run db u).2
      ∧ ∀ m, number ≤ m → ((UsageCall.edit ctx k call).run db u).2.session.store? m
          = u.session.store? m := by
  obtain ⟨⟨j, e, he, hlt⟩, ⟨t, shown, ht, hmemory, hle⟩, -⟩ := h
  obtain ⟨hs, -⟩ := BulkEditor.local_call ctx call u.session e
  have hnewer : ∀ m, number ≤ m → ((UsageCall.edit ctx k call).run db u).2.session.store? m
      = u.session.store? m := by
    intro m hm
    rw [UsageCall.run, he]
    exact hs.others m (by omega)
  have ht' : ((UsageCall.edit ctx k call).run db u).2.handles[i]? = some t := by
    rw [UsageCall.run, he]
    exact ht
  refine ⟨showsSame_of_materialized? ht ht' ?_, hnewer⟩
  rw [TableHandle.materialized?, TableHandle.materialized?, hmemory]
  exact hnewer shown hle

/-- What is read depends on the answer of the shop alone, and stays what it is. Whatever calls were
made of a database before, and of whichever shop: two scans of one table give the same if the shop's
answer to their request is the same. Calls that go neither to a handle nor to a deleter opened with
it do not change the row store that it shows, nor the rows of a partition. And if a handle is read
when a deleter is there already, no call of this deleter ever changes what the handle shows, nor any
row store that was added since. -/
theorem reads_kept_apart (db : Database) (api : σ) (calls : List (UsageCall σ)) :
    (∀ (api' : σ) calls' ctx ctx' i j t t',
      (after db api calls).handles[i]? = some t → (after db api' calls').handles[j]? = some t' →
      t'.definition = t.definition →
      (after db api' calls').session.answer ctx' t.definition
        = (after db api calls).session.answer ctx t.definition →
      ((UsageCall.scan ctx' j).run db (after db api' calls')).1
        = ((UsageCall.scan ctx i).run db (after db api calls)).1)
    ∧ (∀ j t more, (after db api calls).handles[j]? = some t →
        Away db j more (after db api calls) →
        ShowsSame db j (after db api calls)
          (runAll (UsageCall.run db) more (after db api calls)).2)
    ∧ (∀ k i ctx u' more, k < (after db api calls).deleters.length →
        HasRead db ctx i (after db api calls) u' → ∀ ctx' call,
        ShowsSame db i (runAll (UsageCall.run db) more u').2
            ((UsageCall.edit ctx' k call).run db (runAll (UsageCall.run db) more u').2).2
          ∧ ∀ m, (after db api calls).session.stores.length ≤ m →
              ((UsageCall.edit ctx' k call).run db
                  (runAll (UsageCall.run db) more u').2).2.session.store? m
                = (runAll (UsageCall.run db) more u').2.session.store? m) := by
  obtain ⟨owner, howned⟩ := exists_owned_after db api calls
  refine ⟨?_, ?_, ?_⟩
  · intro api' calls' ctx ctx' i j t t' ht ht' hdefinition hanswer
    obtain ⟨owner', howned'⟩ := exists_owned_after db api' calls'
    have hcount : t'.partitionCount = t.partitionCount :=
      (howned'.count t' (List.mem_of_getElem? ht')).trans
        (howned.count t (List.mem_of_getElem? ht)).symm
    rw [fst_run_scan ht, fst_run_scan ht', hcount, hdefinition, hanswer]
  · intro j t more ht haway
    obtain ⟨ht', hsame⟩ := frame_runAll howned ht haway
    exact showsSame_of_materialized? ht ht' hsame
  · intro k i ctx u' more hk hread ctx' call
    have hnewer := newer_of_hasRead howned hread hk
    exact (hnewer.runAll more).edit ctx' call

/-! ### An abandoned statement -/

open TableHandle (columnsWith offering productHandle productStore read?_products)

/-- The table of products. -/
def productTable : TableDefinition := (productHandle (columnsWith "name")).definition

/-- A store of the two products. -/
def twoProductStore : RowStore :=
  productStore "name" [⟨1, [.text "1", .text "A"]⟩, ⟨2, [.text "2", .text "B"]⟩]

theorem storeOfAnswer_twoProducts :
    productTable.storeOfAnswer 2 (ofProducts.session.answer ⟨"q"⟩ productTable)
      = .ok twoProductStore := by
  have hanswer : ofProducts.session.answer ⟨"q"⟩ productTable
      = .ok (SearchAnswer.answerDocument twoProducts 2).bytes := rfl
  have hread : SearchAnswer.read? (SearchAnswer.answerDocument twoProducts 2).bytes = _ :=
    read?_products (by decide) "1" "2" "A" "B"
  rw [hanswer, TableDefinition.storeOfAnswer, Api.readAnswer, hread]
  rfl

/-- A scan reads the two products as long as the shop offers them. -/
theorem run_scan_twoProducts {u : Usage (Recorded CannedApi)} {i : Nat} {memory : Option Nat}
    (ht : u.handles[i]? = some ⟨productTable, 2, memory⟩) {ctx : Context}
    (hanswer : u.session.answer ctx productTable
      = ofProducts.session.answer ⟨"q"⟩ productTable) :
    (UsageCall.scan ctx i).run productDatabase u
      = (.rows [[.text "1", .text "A"], [.text "2", .text "B"]],
          { u with
            session := { u.session.asked ctx productTable with
              stores := u.session.stores ++ [twoProductStore] }
            handles := u.handles.set i ⟨productTable, 2, some u.session.stores.length⟩ }) := by
  rw [UsageCall.run, onHandle_of_some _ _ ht, TableHandle.runFrom_scan_eq, TableHandle.reading]
  dsimp only
  rw [hanswer, storeOfAnswer_twoProducts]
  rfl

/-- Two handles to the table of products; one was scanned, and a statement begun with it. -/
def abandoned : Usage (Recorded CannedApi) :=
  after productDatabase (offering twoProducts).api
    [.lookUp "Product", .lookUp "product", .scan ⟨"q"⟩ 0, .openDeleter 0, .edit ⟨"q"⟩ 0 .begin]

theorem abandoned_eq :
    abandoned
      = ⟨⟨(ofProducts.session.asked ⟨"q"⟩ productTable).api,
            [twoProductStore.openSavepoint "stmt_q"]⟩,
          [⟨productTable, 2, some 0⟩, ⟨productTable, 2, none⟩],
          [(0, ⟨productTable, 0, ⟨some "stmt_q"⟩, []⟩)]⟩ := by
  let opened : Usage (Recorded CannedApi) :=
    { ofProducts with handles := [⟨productTable, 2, none⟩, ⟨productTable, 2, none⟩] }
  have hscan : (UsageCall.scan ⟨"q"⟩ 0).run productDatabase opened = _ :=
    run_scan_twoProducts rfl rfl
  show (runAll (UsageCall.run productDatabase) [.scan ⟨"q"⟩ 0, .openDeleter 0, .edit ⟨"q"⟩ 0 .begin]
    opened).2 = _
  rw [runAll, hscan]
  rfl

/-- A statement is abandoned and its handle scanned again: another handle scans the same rows, the
first handle shows the same after that, and the deleter of the abandoned statement deletes nothing
of what was scanned later. -/
theorem reads_kept_apart_abandoned :
    ∃ u, HasRead productDatabase ⟨"r"⟩ 0 abandoned u
      ∧ ((UsageCall.scan ⟨"r"⟩ 1).run productDatabase abandoned).1
          = ((UsageCall.scan ⟨"q"⟩ 0).run productDatabase
              (after productDatabase (offering twoProducts).api [.lookUp "product"])).1
      ∧ ShowsSame productDatabase 0 abandoned
          ((UsageCall.scan ⟨"r"⟩ 1).run productDatabase abandoned).2
      ∧ ShowsSame productDatabase 0 u
          ((UsageCall.edit ⟨"q"⟩ 0 (.delete [.text "1", .text "A"])).run productDatabase u).2 := by
  obtain ⟨hsame, hkept, hnewer⟩ := reads_kept_apart productDatabase (offering twoProducts).api
    [.lookUp "Product", .lookUp "product", .scan ⟨"q"⟩ 0, .openDeleter 0, .edit ⟨"q"⟩ 0 .begin]
  have hfirst : abandoned.handles[0]? = some ⟨productTable, 2, some 0⟩ := by
    rw [abandoned_eq]
    rfl
  have hsecond : abandoned.handles[1]? = some ⟨productTable, 2, none⟩ := by
    rw [abandoned_eq]
    rfl
  have hdeleters : 0 < abandoned.deleters.length := by
    rw [abandoned_eq]
    exact Nat.one_pos
  have hanswer : abandoned.session.answer ⟨"r"⟩ productTable
      = ofProducts.session.answer ⟨"q"⟩ productTable := by
    rw [abandoned_eq]
    rfl
  have hread : HasRead productDatabase ⟨"r"⟩ 0 abandoned _ :=
    .inr ⟨_, run_scan_twoProducts hfirst hanswer⟩
  exact ⟨_, hread,
    (hsame _ [.lookUp "product"] ⟨"r"⟩ ⟨"q"⟩ 1 0 _ ⟨productTable, 2, none⟩ hsecond rfl rfl
      hanswer.symm).symm,
    hkept 0 _ [.scan ⟨"r"⟩ 1] hfirst ⟨by decide, trivial⟩,
    (hnewer 0 0 ⟨"r"⟩ _ [] hdeleters hread ⟨"q"⟩ (.delete [.text "1", .text "A"])).1⟩

end Usage

end ShopTables
