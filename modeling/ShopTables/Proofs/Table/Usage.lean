import ShopTables.Database
import ShopTables.Proofs.Table.EditorLedger
import ShopTables.Proofs.Table.Materialization
import ShopTables.Proofs.Table.RemainingRows

/-!
# A database in use

Whoever uses a database looks up tables, and with the handles that this gives reads them and opens
deleters, any number of each and in any order, while the shop changes as it likes (`UsageCall`). All
of this goes on over one session. Of all calls only those that read a table and those of a deleter
change the session (`UsageCall.session_of_isQuiet`), and reading a table makes one request and adds
one row store or none (`partitions_all_or_nothing`).
-/

namespace ShopTables

/-- A session, and the handles and deleters that are in use, each deleter with the number of the
handle it was opened with. -/
structure Usage (σ : Type) where
  session : Session σ
  handles : List TableHandle := []
  deleters : List (Nat × BulkEditor) := []

/-- What can be done with a database. Handles and deleters are named by their number. -/
inductive UsageCall (σ : Type) where
  /-- Something happens at the shop, or a statement is cancelled. -/
  | shop (change : σ → σ)
  | lookUp (name : String)
  | fresh (handle : Nat)
  | schema (handle : Nat)
  | materialized (handle : Nat)
  | partitions (ctx : Context) (handle : Nat)
  | partitionRows (handle : Nat) (partition : Nat)
  | scan (ctx : Context) (handle : Nat)
  | openDeleter (handle : Nat)
  | edit (ctx : Context) (deleter : Nat) (call : EditorCall)

/-- What a call gives. -/
inductive UsageAnswer where
  | done
  | columns (columns : List Column)
  | store (store : Option RowStore)
  | partitions (indices : List Nat)
  | rows (rows : List Row)
  | failed (e : TableError)
  /-- There is no handle or no deleter of that number. -/
  | unknown

/-- The answer of a call that may fail. -/
def UsageAnswer.ofExcept {α : Type} (answer : α → UsageAnswer) : Except TableError α → UsageAnswer
  | .ok a => answer a
  | .error e => .failed e

namespace Usage

variable {σ : Type}

/-- A session in which nothing has been looked up. -/
def start (api : σ) : Usage σ := { session := { api } }

/-- The row store last read with a handle, if any. -/
def materialized? (u : Usage σ) (i : Nat) : Option RowStore :=
  u.handles[i]?.bind fun t => t.materialized? u.session

/-- Makes a call of a handle. -/
def onHandle {α : Type} (answer : α → UsageAnswer)
    (x : Step TableError (Session σ × TableHandle) α) (i : Nat) (u : Usage σ) :
    UsageAnswer × Usage σ :=
  match u.handles[i]? with
  | none => (.unknown, u)
  | some t =>
    let (r, session, t') := x.runFrom (u.session, t)
    (.ofExcept answer r, { u with session, handles := u.handles.set i t' })

end Usage

namespace UsageCall

variable {σ : Type} [Api σ]

/-- Makes a call. -/
def run (db : Database) : UsageCall σ → Usage σ → UsageAnswer × Usage σ
  | .shop change, u =>
    (.done, { u with session := { u.session with api := change u.session.api } })
  | .lookUp name, u =>
    match db.openTable name with
    | .error e => (.failed e, u)
    | .ok t => (.done, { u with handles := u.handles ++ [t] })
  | .fresh i, u =>
    match u.handles[i]? with
    | none => (.unknown, u)
    | some t => (.done, { u with handles := u.handles ++ [t.fresh] })
  | .schema i, u =>
    match u.handles[i]? with
    | none => (.unknown, u)
    | some t => (.columns t.definition.columns, u)
  | .materialized i, u =>
    match u.handles[i]? with
    | none => (.unknown, u)
    | some t => (.store (t.materialized? u.session), u)
  | .partitions ctx i, u => u.onHandle .partitions (TableHandle.partitions ctx) i
  | .partitionRows i partition, u => u.onHandle .rows (TableHandle.partitionRows partition) i
  | .scan ctx i, u => u.onHandle .rows (TableHandle.scan ctx) i
  | .openDeleter i, u =>
    match u.handles[i]? with
    | none => (.unknown, u)
    | some t =>
      match TableHandle.openDeleter.runFrom (u.session, t) with
      | (.error e, session, t') => (.failed e, { u with session, handles := u.handles.set i t' })
      | (.ok e, session, t') =>
        (.done, { session, handles := u.handles.set i t', deleters := u.deleters ++ [(i, e)] })
  | .edit ctx k call, u =>
    match u.deleters[k]? with
    | none => (.unknown, u)
    | some (i, e) =>
      let (r, session, e') := (call.run ctx).runFrom (u.session, e)
      (.ofExcept (fun _ => .done) r, { u with session, deleters := u.deleters.set k (i, e') })

/-- Does a call neither read a table nor go to a deleter, and does the shop not change? -/
def isQuiet : UsageCall σ → Bool
  | .lookUp _ | .fresh _ | .schema _ | .materialized _ | .partitionRows _ _ | .openDeleter _ => true
  | _ => false

end UsageCall

/-! ### Calls of handles -/

section

variable {σ : Type} {u : Usage σ} {i : Nat} {t : TableHandle}

theorem Usage.onHandle_of_some {α : Type} (answer : α → UsageAnswer)
    (x : Step TableError (Session σ × TableHandle) α) (ht : u.handles[i]? = some t) :
    u.onHandle answer x i
      = (.ofExcept answer (x.runFrom (u.session, t)).1,
          { u with
            session := (x.runFrom (u.session, t)).2.1
            handles := u.handles.set i (x.runFrom (u.session, t)).2.2 }) := by
  rw [onHandle, ht]

/-- Putting back the handle that is there changes nothing. -/
theorem Usage.set_handle (ht : u.handles[i]? = some t) : u.handles.set i t = u.handles := by
  obtain ⟨hlt, rfl⟩ := List.getElem?_eq_some_iff.mp ht
  exact List.set_getElem_self hlt

theorem TableHandle.runFrom_partitionRows_snd (partition : Nat) (s : Session σ) (t : TableHandle) :
    ((partitionRows partition).runFrom (s, t)).2 = (s, t) := by
  rw [partitionRows, Step.runFrom_ofFn]
  dsimp only
  cases t.materialized? s with
  | none => rfl
  | some store => rfl

end

/-! ### What does not touch the session -/

namespace UsageCall

variable {σ : Type} [Api σ]

/-- Looking up, copying and asking handles, giving the rows of a partition and opening a deleter
make no request and touch no row store. -/
theorem session_of_isQuiet (db : Database) {c : UsageCall σ} (h : c.isQuiet = true) (u : Usage σ) :
    (c.run db u).2.session = u.session := by
  cases c with
  | lookUp name =>
    rw [run]
    cases db.openTable name with
    | error e => rfl
    | ok t => rfl
  | fresh i =>
    rw [run]
    cases u.handles[i]? with
    | none => rfl
    | some t => rfl
  | schema i =>
    rw [run]
    cases u.handles[i]? with
    | none => rfl
    | some t => rfl
  | materialized i =>
    rw [run]
    cases u.handles[i]? with
    | none => rfl
    | some t => rfl
  | partitionRows i partition =>
    rw [run]
    cases ht : u.handles[i]? with
    | none => rw [Usage.onHandle, ht]
    | some t => rw [Usage.onHandle_of_some _ _ ht, TableHandle.runFrom_partitionRows_snd]
  | openDeleter i =>
    rw [run]
    cases u.handles[i]? with
    | none => rfl
    | some t =>
      dsimp only
      rw [TableHandle.openDeleter, Step.runFrom_ofFn]
      dsimp only
      cases t.memory with
      | none => rfl
      | some number => rfl
  | shop change => cases h
  | partitions ctx i => cases h
  | scan ctx i => cases h
  | edit ctx k call => cases h

end UsageCall

/-! ### Reading a table -/

section

variable {τ : Type} [CancellableApi τ]

/-- The request for a table arrives, unless its statement is cancelled. -/
theorem Session.received_asked (ctx : Context) (d : TableDefinition) (s : Session (Recorded τ)) :
    (s.asked ctx d).api.received
      = s.api.received ++ if s.api.isCancelled ctx then [] else [d.searchRequest] := rfl

theorem Session.answer_of_isCancelled {ctx : Context} {d : TableDefinition}
    {s : Session (Recorded τ)} (h : s.api.isCancelled ctx = true) :
    s.answer ctx d = .error .cancelled := by
  rw [answer, Recorded.runFrom_send]
  dsimp only
  rw [CancellableApi.send_cancelled ctx d.searchRequest s.api.shop h]

/-- Reading a table makes one request, a post without a body to the path of its entity, whose name
is that of the table with hyphens for underscores, or none if the statement is cancelled. If the
answer is accepted, the handle has a new row store with one row for each record, in the order of the
records. If it is not, reading fails: with the error of the answer, which is of the transport class
when the statement is cancelled or the shop answers with an error status, and with one of the decode
class when the answer cannot be read; and all handles have what they had. What is quiet makes no
request at all. -/
theorem partitions_all_or_nothing (db : Database) (u : Usage (Recorded τ)) :
    (∀ ctx i t, u.handles[i]? = some t → ∃ given u' entity,
      (UsageCall.partitions ctx i).run db u = (given, u')
      ∧ Hyphenated t.definition.name entity
      ∧ u'.session.api.received = u.session.api.received
          ++ (if u.session.api.isCancelled ctx then []
              else [⟨.post, "/api/search/" ++ entity, none⟩])
      ∧ (∀ rows, t.definition.Accepts (u.session.answer ctx t.definition) rows →
          ∃ store, Filled t.definition t.partitionCount rows store
            ∧ given = .partitions store.partitions
            ∧ u'.session.stores = u.session.stores ++ [store]
            ∧ u'.materialized? i = some store)
      ∧ ((∀ rows, ¬ t.definition.Accepts (u.session.answer ctx t.definition) rows) →
          ∃ e, given = .failed e
            ∧ u'.session.stores = u.session.stores ∧ u'.handles = u.handles
            ∧ (∀ j, u'.materialized? j = u.materialized? j)
            ∧ (∀ cause, u.session.answer ctx t.definition = .error cause → e = .api cause)
            ∧ (u.session.api.isCancelled ctx = true →
                e = .api .cancelled ∧ e.isTransport = true)
            ∧ (∀ method path code body,
                u.session.answer ctx t.definition = .error (.status method path code body) →
                e.isTransport = true)
            ∧ (∀ bytes, u.session.answer ctx t.definition = .ok bytes →
                SearchAnswer.read? bytes = none → e = .api .decode ∧ e.isDecode = true)))
    ∧ ∀ c : UsageCall (Recorded τ), c.isQuiet = true → (c.run db u).2.session = u.session := by
  refine ⟨?_, fun c hc => UsageCall.session_of_isQuiet db hc u⟩
  intro ctx i t ht
  obtain ⟨hlt, -⟩ := List.getElem?_eq_some_iff.mp ht
  rw [UsageCall.run, Usage.onHandle_of_some _ _ ht, TableHandle.runFrom_partitions,
    TableHandle.reading]
  cases hstore : t.definition.storeOfAnswer t.partitionCount
      (u.session.answer ctx t.definition) with
  | ok store =>
    refine ⟨_, _, _, rfl, hyphenated_apiName t.definition.name,
      Session.received_asked ctx t.definition u.session, ?_, ?_⟩
    · intro rows hrows
      obtain ⟨store', hstore', hfilled⟩ :=
        TableDefinition.exists_storeOfAnswer hrows t.partitionCount
      obtain rfl := Except.ok.inj (hstore.symm.trans hstore')
      refine ⟨store, hfilled, rfl, rfl, ?_⟩
      rw [Usage.materialized?, List.getElem?_set_self hlt, Option.bind_some]
      exact TableHandle.materialized?_newest t _ u.session.stores store
    · intro hnone
      obtain ⟨rows, hrows⟩ := TableDefinition.accepts_of_storeOfAnswer hstore
      exact absurd hrows (hnone rows)
  | error e =>
    have hhandles : u.handles.set i t = u.handles := Usage.set_handle ht
    have hcause : ∀ cause, u.session.answer ctx t.definition = .error cause → e = .api cause := by
      intro cause hanswer
      rw [hanswer] at hstore
      exact (Except.error.inj hstore).symm
    refine ⟨_, _, _, rfl, hyphenated_apiName t.definition.name,
      Session.received_asked ctx t.definition u.session, ?_, ?_⟩
    · intro rows hrows
      obtain ⟨store, hstore', -⟩ := TableDefinition.exists_storeOfAnswer hrows t.partitionCount
      rw [hstore] at hstore'
      cases hstore'
    · intro _
      refine ⟨e, rfl, rfl, hhandles, ?_, hcause, ?_, ?_, ?_⟩
      · intro j
        rw [Usage.materialized?, Usage.materialized?]
        dsimp only
        rw [hhandles]
        rfl
      · intro hcancelled
        obtain rfl := hcause .cancelled (Session.answer_of_isCancelled hcancelled)
        exact ⟨rfl, rfl⟩
      · intro method path code body hanswer
        obtain rfl := hcause _ hanswer
        rfl
      · intro bytes hanswer hread
        rw [hanswer, TableDefinition.storeOfAnswer, Api.readAnswer, hread] at hstore
        obtain rfl := Except.error.inj hstore
        exact ⟨rfl, rfl⟩

end

/-! ### One table in use -/

namespace Usage

open TableHandle (columnsWith handleOf offeringOf product read?_products)

/-- A database of one table. -/
def oneTable (name : String) : Database where
  name := "shop"
  tables := [(name, (handleOf name (columnsWith "name")).definition)]
  partitionCount := 2

/-- Two products, as the shop offers them. -/
def twoProducts : List (List (String × Json)) := [product "name" "1" "A", product "name" "2" "B"]

/-- A handle to the one table, which has not been read; the shop has two records for it. -/
def unread (name : String) : Usage (Recorded CannedApi) where
  session := offeringOf name twoProducts
  handles := [handleOf name (columnsWith "name")]

/-- A database of one table, of products. -/
def productDatabase : Database := oneTable "product"

/-- A handle to the table of products, which has not been read. -/
def ofProducts : Usage (Recorded CannedApi) := unread "product"

/-- Cancels the statement `q`. -/
def cancelling : UsageCall (Recorded CannedApi) :=
  .shop fun a => { a with shop := a.shop.cancel ⟨"q"⟩ }

/-- The two records are accepted, also of an entity with an underscore in its name. -/
theorem accepts_twoProducts :
    (handleOf "product_media" (columnsWith "name")).definition.Accepts
      ((unread "product_media").session.answer ⟨"q"⟩
        (handleOf "product_media" (columnsWith "name")).definition)
      [[.text "1", .text "A"], [.text "2", .text "B"]] := by
  refine ⟨⟨_, _, rfl, read?_products (by decide) "1" "2" "A" "B",
    .cons rfl (.cons rfl .nil)⟩, rfl, ?_⟩
  decide

/-- The table is read, by a path that has a hyphen for the underscore in its name; and when the
statement is cancelled, reading it again fails without a request, and its rows stay. -/
theorem partitions_all_or_nothing_media :
    ∃ store u u',
      (UsageCall.partitions ⟨"q"⟩ 0).run (oneTable "product_media") (unread "product_media")
          = (.partitions [0, 1], u)
      ∧ u.session.api.received = [⟨.post, "/api/search/product-media", none⟩]
      ∧ u.materialized? 0 = some store ∧ store.size = 2
      ∧ (UsageCall.partitions ⟨"q"⟩ 0).run (oneTable "product_media")
            (cancelling.run (oneTable "product_media") u).2
          = (.failed (.api .cancelled), u')
      ∧ u'.session.api.received = [⟨.post, "/api/search/product-media", none⟩]
      ∧ u'.materialized? 0 = some store := by
  obtain ⟨given, u, entity, hrun, hname, hreceived, haccepted, -⟩ :=
    (partitions_all_or_nothing (oneTable "product_media") (unread "product_media")).1 ⟨"q"⟩ 0 _ rfl
  obtain rfl : entity = "product-media" := hname.unique (by decide)
  obtain ⟨store, hfilled, rfl, -, hstore⟩ := haccepted _ accepts_twoProducts
  have hindices : store.partitions = [0, 1] := by
    rw [RowStore.partitions, hfilled.partitionCount]
    rfl
  have hsize : store.size = 2 := by
    have hlength := congrArg List.length hfilled.cells
    rw [List.length_map, List.length_map] at hlength
    exact hlength
  -- the same handle, after the statement was cancelled
  obtain ⟨t, ht, -⟩ := Option.bind_eq_some_iff.mp hstore
  have hcancelled :
      (cancelling.run (oneTable "product_media") u).2.session.api.isCancelled ⟨"q"⟩ = true := by
    show (Context.mk "q" :: u.session.api.shop.cancelled).contains ⟨"q"⟩ = true
    rw [List.contains_iff_mem]
    exact List.mem_cons_self
  obtain ⟨given, u', _, hrun', -, hreceived', -, hrefused⟩ :=
    (partitions_all_or_nothing (oneTable "product_media")
      (cancelling.run (oneTable "product_media") u).2).1 ⟨"q"⟩ 0 t ht
  obtain ⟨e, rfl, -, -, hkept, -, hcause, -⟩ := hrefused fun rows hrows => by
    obtain ⟨bytes, found, hanswer, -⟩ := hrows.converted
    rw [Session.answer_of_isCancelled hcancelled] at hanswer
    cases hanswer
  obtain ⟨rfl, -⟩ := hcause hcancelled
  rw [if_pos hcancelled, List.append_nil] at hreceived'
  have hreceived₁ : u.session.api.received = [⟨.post, "/api/search/product-media", none⟩] :=
    hreceived
  exact ⟨store, u, u', hindices ▸ hrun, hreceived₁, hstore, hsize, hrun',
    hreceived'.trans hreceived₁, (hkept 0).trans hstore⟩

end Usage

end ShopTables
