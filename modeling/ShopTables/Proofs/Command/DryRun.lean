import ShopTables.Proofs.Command.Filters
import ShopTables.Proofs.Command.TableNames
import ShopTables.Proofs.Shop.Tokens
import ShopTables.Proofs.Table.SyncRequest

/-!
# Deleting rows, and only counting them

```
    open the table --> read the filters --> scan --> count
                                              |
                                              +----> choose, delete, send the keys
```

The command that deletes rows and its dry run have their way up to the scan in common. So they
count the same rows, those that show every value the filters ask for, and only one of them goes on
to tell the shop (`delete_agrees`); and filters that are refused stop both of them before the table
is searched.
-/

namespace ShopTables

/-! ### Opening a table -/

namespace Options

variable {ω : Type} [Network ω]

/-- The definition of a table that is opened. -/
def tableOf (o : Options) (files : Files) (ctx : Context) (name : String) :
    Step CommandError ω TableDefinition :=
  o.withTable files ctx name (return (← get).2.definition)

/-- The rows of a table that is opened. -/
def rowsOf (o : Options) (files : Files) (ctx : Context) (name : String) :
    Step CommandError ω (List Row) :=
  o.withTable files ctx name (Invocation.readRows ctx name)

variable {o : Options} {files : Files} {ctx : Context} {config : ShopConfig}

/-- To connect to a shop is to ask for its schema, if no file has it. -/
theorem connect_cases (o : Options) (files : Files) (ctx : Context) (config : ShopConfig)
    (c : ShopClient ω) :
    ((o.connect files ctx config).runFrom c).2 = c
      ∨ ((o.connect files ctx config).runFrom c).2
        = ((ShopClient.send ctx ⟨.get, schemaPath, none⟩).runFrom c).2 := by
  unfold connect
  cases o.schemaFile with
  | some path =>
    left
    dsimp only
    rw [Step.runFrom_bind_pure, Step.runFrom_ofExcept]
  | none =>
    right
    dsimp only
    rw [Step.runFrom_mapError, Database.connect, Step.runFrom_bind_pure, Registry.load,
      Step.runFrom_bind_pure, Api.runFrom_getJson]
    rfl

/-- A table that can be opened is opened before anything else, and only its schema and a token are
asked for. -/
theorem exists_of_tableOf {name : String} {w w₁ : Logged ω} {d : TableDefinition}
    (hconfig : o.loadConfig files = .ok config)
    (hopen : (o.tableOf files ctx name).runFrom w = (.ok d, w₁)) :
    ∃ (c : ShopClient (Logged ω)) (t : TableHandle), t.definition = d ∧ c.network = w₁
      ∧ c.baseUrl = config.baseUrl
      ∧ (∀ path, path ≠ tokenPath → path ≠ schemaPath →
        w₁.requestsTo (config.baseUrl ++ path) = w.requestsTo (config.baseUrl ++ path))
      ∧ ∀ {α : Type} (x : Step CommandError (Session (ShopClient (Logged ω)) × TableHandle) α),
        (o.withTable files ctx name x).runFrom w
          = ((x.runFrom (⟨c, []⟩, t)).1, (x.runFrom (⟨c, []⟩, t)).2.1.api.network) := by
  unfold tableOf withTable at hopen
  rw [hconfig, Step.runFrom_bind_of_ok (Step.runFrom_ofExcept _ w)] at hopen
  cases hclient : ShopClient.ofConfig config w with
  | error e =>
    rw [withClient, Step.runFrom_ofFn] at hopen
    dsimp only at hopen
    rw [hclient] at hopen
    cases hopen
  | ok c₀ =>
    rw [runFrom_withClient hclient] at hopen
    obtain ⟨credentials, rfl⟩ := ShopClient.eq_of_ofConfig hclient
    generalize hc₀ : ({ baseUrl := config.baseUrl, credentials, network := w } :
      ShopClient (Logged ω)) = c₀ at *
    have hcases := connect_cases o files ctx config c₀
    rcases hconnect : (o.connect files ctx config).runFrom c₀ with ⟨connected, c⟩
    rw [hconnect] at hcases
    dsimp only at hcases
    cases connected with
    | error e =>
      rw [Step.runFrom_bind_of_error hconnect] at hopen
      cases hopen
    | ok db =>
      rw [Step.runFrom_bind_of_ok hconnect] at hopen
      cases hfound : db.openTable name with
      | error e =>
        rw [hfound] at hopen
        cases hopen
      | ok t =>
        rw [hfound] at hopen
        obtain ⟨hd, rfl⟩ := Prod.mk.inj hopen
        refine ⟨c, t, Except.ok.inj hd, rfl, ?_, ?_, ?_⟩
        · obtain hc | hc := hcases
          · rw [hc, ← hc₀]
          · rw [hc, ShopClient.baseUrl_send, ← hc₀]
        · intro path htoken hschema
          have hurl : c₀.url path = config.baseUrl ++ path := by rw [← hc₀]; rfl
          have hnetwork : c₀.network = w := by rw [← hc₀]
          show c.network.requestsTo _ = _
          rw [← hurl, ← hnetwork]
          obtain hc | hc := hcases
          · rw [hc]
          · rw [hc]
            exact ShopClient.requestsTo_send_of_ne c₀ ctx _ htoken (Ne.symm hschema)
        · intro α x
          unfold withTable
          rw [hconfig, Step.runFrom_bind_of_ok (Step.runFrom_ofExcept _ w),
            runFrom_withClient hclient, Step.runFrom_bind_of_ok hconnect, hfound]
          rfl

end Options

namespace Invocation

/-! ### The command on an open table -/

section

variable {σ : Type} [Api σ] {ctx : Context} {name : String} {filters : List String}
  {s s' : Session σ} {t t' : TableHandle}

/-- What reading rows gives: rows of a table whose columns have names of their own, after one
request. -/
theorem readRows_ok {rows : List Row}
    (h : (readRows ctx name).runFrom (s, t) = (.ok rows, s', t')) :
    (TableHandle.scan ctx).runFrom (s, t) = (.ok rows, s', t')
      ∧ (t.definition.columns.map (·.name)).Nodup
      ∧ ∀ row ∈ rows, row.length = t.definition.columns.length := by
  rw [readRows, Step.runFrom_mapError] at h
  rcases hscan : (TableHandle.scan ctx).runFrom (s, t) with ⟨scanned, s₁, t₁⟩
  rw [hscan] at h
  obtain ⟨hrows, hst⟩ := Prod.mk.inj h
  obtain ⟨rfl, rfl⟩ := Prod.mk.inj hst
  cases scanned with
  | error e => cases hrows
  | ok rows' =>
    obtain rfl := Except.ok.inj hrows
    obtain ⟨-, -, inserted, store, -, -, -, hfilled, -, -, rfl⟩ := TableHandle.scan_ok hscan
    exact ⟨rfl, hfilled.names, fun row hrow => hfilled.length_of_mem_rows hrow⟩

/-- The command reads its filters before anything else, and asks for nothing in doing so. -/
theorem runFrom_delete (filters : List String) (dryRun : Bool) :
    (delete ctx name filters dryRun).runFrom (s, t)
      = match Filter.readAll t.definition filters with
        | .error e => (.error (.filter e), s, t)
        | .ok fs =>
          (if dryRun then do
            let rows ← readRows ctx name
            return "Would delete " ++ toString (rows.filter (Filter.allPass fs)).length
              ++ " rows from " ++ t.definition.name ++ ".\n"
          else do
            let count ← (TableHandle.deleteMatching ctx fun row =>
              pure (Filter.allPass fs row)).mapError (.deleteRows name)
            return "Deleted " ++ toString count ++ " rows from " ++ t.definition.name ++ ".\n" :
          Step CommandError (Session σ × TableHandle) String).runFrom (s, t) := by
  have hget : (get : Step CommandError (Session σ × TableHandle) _).runFrom (s, t)
      = (.ok (s, t), s, t) := rfl
  rw [delete, Step.runFrom_bind_of_ok hget]
  dsimp only
  rw [Step.runFrom_bind, Step.runFrom_ofExcept]
  cases Filter.readAll t.definition filters with
  | error e => rfl
  | ok fs => rfl

variable {fs : List Filter} (h : Filter.readAll t.definition filters = .ok fs)

include h

/-- The dry run reads the rows and counts those that pass. -/
theorem runFrom_delete_dryRun : (delete ctx name filters true).runFrom (s, t)
    = (((readRows ctx name).runFrom (s, t)).1.map fun rows => "Would delete "
          ++ toString (rows.filter (Filter.allPass fs)).length ++ " rows from " ++ t.definition.name
          ++ ".\n", ((readRows ctx name).runFrom (s, t)).2) := by
  rw [runFrom_delete, h]
  exact Step.runFrom_bind_pure _ _ _

/-- The command proper, if it succeeds, has read the same rows and sent the keys of those that
pass. -/
theorem delete_ok {text : String}
    (hrun : (delete ctx name filters false).runFrom (s, t) = (.ok text, s', t')) :
    ∃ rows s₁ t₁ keys, (readRows ctx name).runFrom (s, t) = (.ok rows, s₁, t₁)
      ∧ text = "Deleted " ++ toString (rows.filter (Filter.allPass fs)).length ++ " rows from "
          ++ t.definition.name ++ ".\n"
      ∧ (rows.filter (Filter.allPass fs)).mapM (BulkEditor.keyOf? t.definition) = some keys
      ∧ TableHandle.Synced ctx t.definition keys s₁.api s'.api := by
  rw [runFrom_delete, h] at hrun
  dsimp only at hrun
  rw [if_neg Bool.false_ne_true, Step.runFrom_bind_pure, Step.runFrom_mapError] at hrun
  rcases hmatch : (TableHandle.deleteMatching ctx fun row => pure (Filter.allPass fs row)).runFrom
    (s, t) with ⟨counted, s₂, t₂⟩
  rw [hmatch] at hrun
  obtain ⟨htext, hst⟩ := Prod.mk.inj hrun
  obtain ⟨rfl, rfl⟩ := Prod.mk.inj hst
  cases counted with
  | error e => cases htext
  | ok n =>
    obtain rfl := Except.ok.inj htext
    obtain ⟨s₁, t₁, asked, inserted, store, store', chosen, keys, hscan, hasked, -, -, hchosen, rfl,
      hkeys, -, -, hsynced⟩ := TableHandle.deleteMatching_synced
        (fun rows s t => ⟨s.api, congrArg Prod.snd (run_mapM_pure _ rows (s, t))⟩) hmatch
    -- the filters change nothing, and accept the rows that pass
    rw [run_mapM_pure] at hasked
    obtain rfl : s₁.api = asked := congrArg (fun st => st.1.api) hasked
    rw [answersFrom, run_mapM_pure, selected_map] at hchosen
    subst hchosen
    refine ⟨store.rows, s₁, t₁, keys, ?_, rfl, hkeys, hsynced⟩
    rw [readRows, Step.runFrom_mapError, hscan]
    rfl

end

end Invocation

/-! ### What goes to the shop -/

/-- The rows that show all of these texts in the columns they name. -/
def TableDefinition.showing (d : TableDefinition) (wanted : List (String × String))
    (rows : List Row) : List Row :=
  rows.filter fun row => decide (wanted ⊆ d.texts row)

/-- Does a request on its way delete the records of just these keys? -/
def Outgoing.Deletes (r : Outgoing) (d : TableDefinition) (keys : List RecordKey) : Prop :=
  r.method = .post ∧ ∃ v, r.body.bind Json.read? = some v ∧ v.DeletesRecords d.name keys

/-- Between two moments, one request to an address deleted the records of these keys; if there are
no keys, there was no request. -/
def Logged.Told {ω : Type} (url : String) (d : TableDefinition) (keys : List RecordKey)
    (w w' : Logged ω) : Prop :=
  if keys = [] then w'.requestsTo url = w.requestsTo url
  else ∃ sent : Outgoing, w'.requestsTo url = w.requestsTo url ++ [sent] ∧ sent.Deletes d keys

theorem Logged.Told.congr {ω : Type} {url : String} {d : TableDefinition} {keys : List RecordKey}
    {w₀ w w' : Logged ω} (h : Told url d keys w₀ w')
    (hsame : w₀.requestsTo url = w.requestsTo url) :
    Told url d keys w w' := by
  rw [Told] at h ⊢
  rwa [hsame] at h

theorem search_ne_tokenPath (entity : String) : "/api/search/" ++ entity ≠ tokenPath := by
  intro h
  have hsixth := congrArg (fun path => path.toList[5]?) h
  simp [tokenPath] at hsixth

theorem search_ne_schemaPath (entity : String) : "/api/search/" ++ entity ≠ schemaPath := by
  intro h
  have hsixth := congrArg (fun path => path.toList[5]?) h
  simp [schemaPath] at hsixth

namespace Invocation

variable {ω : Type} [Network ω] {ctx : Context} {name : String}

/-- Reading rows tells the shop nothing. -/
theorem requestsTo_readRows (ctx : Context) (name : String) (s : Session (ShopClient (Logged ω)))
    (t : TableHandle) :
    ((readRows ctx name).runFrom (s, t)).2.1.api.baseUrl = s.api.baseUrl
      ∧ ((readRows ctx name).runFrom (s, t)).2.1.api.network.requestsTo (s.api.url syncPath)
        = s.api.network.requestsTo (s.api.url syncPath) := by
  have hapi : ((readRows ctx name).runFrom (s, t)).2.1.api
      = ((ShopClient.send ctx t.definition.searchRequest).runFrom s.api).2 :=
    TableHandle.api_scan ctx s t
  rw [hapi]
  exact ⟨ShopClient.baseUrl_send _ _ _,
    ShopClient.requestsTo_send_of_ne _ _ _ (by decide) (searchPath_ne_syncPath _)⟩

/-- Sending keys of rows tells the shop of them. -/
theorem told_of_synced {d : TableDefinition} {c c' : ShopClient (Logged ω)} {keys : List RecordKey}
    (hkeys : ∀ key ∈ keys, KeyList.Sorted key) (h : TableHandle.Synced ctx d keys c c') :
    Logged.Told (c.url syncPath) d keys c.network c'.network := by
  unfold TableHandle.Synced at h
  unfold Logged.Told
  split at h
  · rw [h, if_pos ‹_›]
  · obtain ⟨bytes, hsend⟩ := h
    have hrun : (ShopClient.send ctx (BulkEditor.syncRequest d keys)).runFrom c = (.ok bytes, c') :=
      hsend
    have hpath : syncPath ≠ tokenPath := by decide
    obtain ⟨text, hsent⟩ := ShopClient.requestsTo_send_of_ok c ctx (BulkEditor.syncRequest d keys)
      hpath (congrArg Prod.fst hrun)
    rw [hrun] at hsent
    rw [if_neg ‹_›]
    exact ⟨_, hsent, rfl, (BulkEditor.deletes_syncRequest d hkeys).document⟩

/-! ### Both commands side by side -/

section

variable {s s₁ : Session (ShopClient (Logged ω))} {t t₁ : TableHandle} {rows : List Row}
  (hscan : (readRows ctx name).runFrom (s, t) = (.ok rows, s₁, t₁))

include hscan

/-- Filters for values are read, and the rows that pass them show the values. -/
theorem exists_filters {wanted : List (String × String)}
    (hwanted : ∀ p ∈ wanted, t.definition.Filterable p.1) :
    ∃ fs, Filter.readAll t.definition (wanted.map Filter.written) = .ok fs
      ∧ rows.filter (Filter.allPass fs) = t.definition.showing wanted rows := by
  obtain ⟨fs, hread, hpass⟩ := Filter.exists_readAll_written wanted hwanted
  obtain ⟨-, hnames, hwide⟩ := readRows_ok hscan
  refine ⟨fs, hread, List.filter_congr fun row hrow => ?_⟩
  rw [Bool.eq_iff_iff, hpass hnames row (hwide row hrow), decide_eq_true_iff]

/-- On an open table, the dry run counts the rows that show the values, and the command proper, if
it succeeds, counts them too and tells the shop of just them. -/
theorem delete_showing {wanted : List (String × String)}
    (hwanted : ∀ p ∈ wanted, t.definition.Filterable p.1) :
    (delete ctx name (wanted.map Filter.written) true).runFrom (s, t)
        = (.ok ("Would delete " ++ toString (t.definition.showing wanted rows).length
            ++ " rows from " ++ t.definition.name ++ ".\n"), s₁, t₁)
      ∧ ∀ text s₂ t₂, (delete ctx name (wanted.map Filter.written) false).runFrom (s, t)
          = (.ok text, s₂, t₂) →
        text = "Deleted " ++ toString (t.definition.showing wanted rows).length ++ " rows from "
            ++ t.definition.name ++ ".\n"
          ∧ ∃ keys, (t.definition.showing wanted rows).mapM (BulkEditor.keyOf? t.definition)
              = some keys
            ∧ keys.length = (t.definition.showing wanted rows).length
            ∧ Logged.Told (s.api.url syncPath) t.definition keys s.api.network s₂.api.network := by
  obtain ⟨fs, hread, hshowing⟩ := exists_filters hscan hwanted
  rw [← hshowing]
  constructor
  · rw [runFrom_delete_dryRun hread, hscan]
    rfl
  · intro text s₂ t₂ hrun
    -- the command proper has read what the dry run reads
    obtain ⟨rows', s₁', t₁', keys, hscan', htext, hkeys, hsynced⟩ := delete_ok hread hrun
    obtain ⟨hrows', hst⟩ := Prod.mk.inj (hscan.symm.trans hscan')
    obtain ⟨rfl, rfl⟩ := Prod.mk.inj hst
    obtain rfl := Except.ok.inj hrows'
    obtain ⟨hbase, hquiet⟩ := requestsTo_readRows ctx name s t
    rw [hscan] at hbase hquiet
    have htold := told_of_synced (BulkEditor.sorted_of_mapM_keyOf? hkeys) hsynced
    rw [ShopClient.url, hbase] at htold
    exact ⟨htext, keys, hkeys, (forall₂_of_mapM_some hkeys).length_eq.symm, htold.congr hquiet⟩

end

/-- A dry run tells the shop nothing, whatever its filters are. -/
theorem requestsTo_delete_dryRun (filters : List String) (s : Session (ShopClient (Logged ω)))
    (t : TableHandle) :
    ((delete ctx name filters true).runFrom (s, t)).2.1.api.network.requestsTo (s.api.url syncPath)
      = s.api.network.requestsTo (s.api.url syncPath) := by
  cases hread : Filter.readAll t.definition filters with
  | error e => rw [runFrom_delete, hread]
  | ok fs =>
    rw [runFrom_delete_dryRun hread]
    exact (requestsTo_readRows ctx name s t).2

/-- The command that deletes rows and its dry run, on the same table of the same shop. Filters for
values, on columns that filters can name, select the scanned rows that show these values: both
commands print how many they are, and the command proper, if it succeeds, has told the shop of
their keys, in one request or, if there are none, in no request. The dry run never tells the shop
anything. And if a filter is malformed or names no column, the first such filter is the reason why
both commands stop, before they search the table or tell the shop anything. -/
theorem delete_agrees {o : Options} {files : Files} {w w₁ : Logged ω} {config : ShopConfig}
    {d : TableDefinition} (hconfig : o.loadConfig files = .ok config)
    (hopen : (o.tableOf files ctx name).runFrom w = (.ok d, w₁)) :
    (∀ (wanted : List (String × String)) (rows : List Row) (w₂ : Logged ω),
      (∀ p ∈ wanted, d.Filterable p.1) →
      (o.rowsOf files ctx name).runFrom w = (.ok rows, w₂) →
      (run ⟨o, .delete name (wanted.map Filter.written) true⟩ files ctx).runFrom w
          = (.ok ("Would delete " ++ toString (d.showing wanted rows).length ++ " rows from "
              ++ d.name ++ ".\n"), w₂)
        ∧ ∀ (text : String) (w₃ : Logged ω),
          (run ⟨o, .delete name (wanted.map Filter.written) false⟩ files ctx).runFrom w
              = (.ok text, w₃) →
            text = "Deleted " ++ toString (d.showing wanted rows).length ++ " rows from " ++ d.name
                ++ ".\n"
              ∧ ∃ keys, (d.showing wanted rows).mapM (BulkEditor.keyOf? d) = some keys
                ∧ keys.length = (d.showing wanted rows).length
                ∧ Logged.Told (config.baseUrl ++ "/api/_action/sync") d keys w w₃)
    ∧ (∀ filters, ((run ⟨o, .delete name filters true⟩ files ctx).runFrom w).2.requestsTo
          (config.baseUrl ++ "/api/_action/sync")
        = w.requestsTo (config.baseUrl ++ "/api/_action/sync"))
    ∧ ∀ filters, (∃ f ∈ filters, ∃ e, Filter.Refused d f e) →
      (∃ before bad after e, filters = before ++ bad :: after
        ∧ (∀ f ∈ before, ∀ e', ¬ Filter.Refused d f e') ∧ Filter.Refused d bad e
        ∧ ∀ dryRun, (run ⟨o, .delete name filters dryRun⟩ files ctx).runFrom w
            = (.error (.filter e), w₁))
      ∧ w₁.requestsTo (config.baseUrl ++ "/api/_action/sync")
          = w.requestsTo (config.baseUrl ++ "/api/_action/sync")
      ∧ ∀ entity, w₁.requestsTo (config.baseUrl ++ ("/api/search/" ++ entity))
          = w.requestsTo (config.baseUrl ++ ("/api/search/" ++ entity)) := by
  obtain ⟨c, t, rfl, rfl, hbase, hquiet, hrun⟩ := Options.exists_of_tableOf hconfig hopen
  have hurl : c.url syncPath = config.baseUrl ++ "/api/_action/sync" := by
    rw [ShopClient.url, hbase, syncPath]
  have hsync : c.network.requestsTo (config.baseUrl ++ "/api/_action/sync")
      = w.requestsTo (config.baseUrl ++ "/api/_action/sync") :=
    hquiet "/api/_action/sync" (by decide) (by decide)
  have hdelete : ∀ filters dryRun, (run ⟨o, .delete name filters dryRun⟩ files ctx).runFrom w
      = (((delete ctx name filters dryRun).runFrom (⟨c, []⟩, t)).1,
        ((delete ctx name filters dryRun).runFrom (⟨c, []⟩, t)).2.1.api.network) :=
    fun filters dryRun => hrun (delete ctx name filters dryRun)
  refine ⟨?_, ?_, ?_⟩
  · intro wanted rows w₂ hwanted hrows
    rw [Options.rowsOf, hrun (readRows ctx name)] at hrows
    rcases hscan : (readRows ctx name).runFrom (⟨c, []⟩, t) with ⟨read, s₁, t₁⟩
    rw [hscan] at hrows
    obtain ⟨rfl, rfl⟩ := Prod.mk.inj hrows
    obtain ⟨hdry, hproper⟩ := delete_showing hscan hwanted
    rw [hdelete, hdry]
    refine ⟨rfl, fun text w₃ hreal => ?_⟩
    rw [hdelete] at hreal
    rcases hrest : (delete ctx name (wanted.map Filter.written) false).runFrom (⟨c, []⟩, t)
      with ⟨result, s₂, t₂⟩
    rw [hrest] at hreal
    obtain ⟨rfl, rfl⟩ := Prod.mk.inj hreal
    obtain ⟨htext, keys, hkeys, hlength, htold⟩ := hproper text s₂ t₂ hrest
    rw [hurl] at htold
    exact ⟨htext, keys, hkeys, hlength, htold.congr hsync⟩
  · intro filters
    rw [hdelete, ← hsync, ← hurl]
    exact requestsTo_delete_dryRun filters (⟨c, []⟩ : Session (ShopClient (Logged ω))) t
  · rintro filters ⟨f, hf, e, hrefused⟩
    refine ⟨?_, hsync, fun entity =>
      hquiet _ (search_ne_tokenPath entity) (search_ne_schemaPath entity)⟩
    obtain ⟨e, hfails⟩ : ∃ e, Filter.readAll t.definition filters = .error e :=
      exists_mapM_error_iff.mpr ⟨f, hf, e, Filter.read_eq_error_iff.mpr hrefused⟩
    obtain ⟨before, bad, after, hfilters, hbefore, hbad⟩ := Filter.readAll_eq_error_iff.mp hfails
    refine ⟨before, bad, after, e, hfilters, hbefore, hbad, fun dryRun => ?_⟩
    rw [hdelete, runFrom_delete, hfails]

end Invocation

/-! ### A shop of two products -/

/-- The entity of products, which are known by an identifier. -/
def productEntity : Entity where
  name := "product"
  properties := [("id", { kind := "uuid", flags := some (.object [("primary_key", .bool true)]) })]

/-- A shop that has two products, and does what it is told. -/
structure Obliging where

namespace Obliging

def records : List (List (String × Json)) := [[("id", .string "1")], [("id", .string "2")]]

/-- What the shop answers, by address. -/
def answer (url : String) : Json :=
  if url = "http://s" ++ tokenPath then TokenAnswer.document "tok" 3600
  else SearchAnswer.answerDocument records 2

instance : Network Obliging where
  exchange r := return ⟨200, (answer r.url).bytes⟩
  now _ := 0
  isCancelled _ _ := false

def config : ShopConfig :=
  { url := "http://s", adminApi := { clientId := "i", clientSecret := "s" } }

def schema : Json := .object [("product", productEntity.toJson)]

/-- A configuration and a schema. -/
def files (path : String) : FileContent :=
  .bytes (if path = "schema.json" then schema.bytes
    else "url: http://s\nadmin_api: \x7bclient_id: i, client_secret: s\x7d\n".toList.map
      fun ch => ch.toNat.toUInt8)

def options : Options := { schemaFile := some "schema.json" }

theorem loadConfig_eq : options.loadConfig files = .ok config := by
  have hload : ShopConfig.load (files options.config) = .ok config := by decide +kernel
  rw [Options.loadConfig, hload]
  rfl

theorem readSchema_eq : Options.readSchema files "schema.json"
    = .ok ⟨[("product", productEntity)], .file "schema.json"⟩ := by
  have hreadable : Json.Readable 5 schema := by
    simp [schema, productEntity, Entity.toJson, Property.toJson, Json.Readable,
      Json.ReadableFields]
  have hread : Entity.readSchema? schema.bytes = some [("product", productEntity)] := by
    rw [Entity.readSchema?, Json.outlineRead?_bytes hreadable]
    rfl
  have hfile : files "schema.json" = .bytes schema.bytes := rfl
  rw [Options.readSchema, hfile, Registry.ofFile, hread]
  rfl

/-- The network before anything was sent. -/
def start : Logged Obliging := ⟨{}, []⟩

/-- The client of the shop, that has sent nothing yet. -/
def client : ShopClient (Logged Obliging) :=
  { baseUrl := "http://s", credentials := .client "i" "s", network := start }

def handle : TableHandle := { definition := BulkEditor.products, partitionCount := 1 }

/-- The table of products is opened, and nothing is asked for. -/
theorem runFrom_withTable {α : Type} (ctx : Context)
    (x : Step CommandError (Session (ShopClient (Logged Obliging)) × TableHandle) α) :
    (options.withTable files ctx "product" x).runFrom start
      = ((x.runFrom (⟨client, []⟩, handle)).1,
          (x.runFrom (⟨client, []⟩, handle)).2.1.api.network) := by
  have hclient : ShopClient.ofConfig config start = .ok client := rfl
  have hconnect : (options.connect files ctx config).runFrom client
      = (.ok (Database.ofRegistry config.adapter
          ⟨[("product", productEntity)], .file "schema.json"⟩), client) := by
    show (Step.ofExcept (Options.readSchema files "schema.json")
      >>= fun r => pure (Database.ofRegistry config.adapter r)).runFrom client = _
    rw [readSchema_eq]
    rfl
  have hget : KeyList.get? (Database.ofRegistry config.adapter
        ⟨[("product", productEntity)], .file "schema.json"⟩).tables (Text.lowerAscii "product")
      = some BulkEditor.products := by decide +kernel
  rw [Options.withTable, loadConfig_eq, Step.runFrom_bind_of_ok (Step.runFrom_ofExcept _ _),
    ShopTables.runFrom_withClient hclient, Step.runFrom_bind_of_ok hconnect, Database.openTable,
    hget]
  rfl

/-- The client after the products were asked for. -/
def asked : ShopClient (Logged Obliging) :=
  (client.granted ⟨"tok", some (3600 * Calendar.second)⟩).after
    (client.outgoing "tok" BulkEditor.products.searchRequest)

theorem runFrom_search (ctx : Context) :
    (ShopClient.send ctx BulkEditor.products.searchRequest).runFrom client
      = (.ok (SearchAnswer.answerDocument records 2).bytes, asked) := by
  have htoken : ShopClient.tokenOf 0 ⟨200, (TokenAnswer.document "tok" 3600).bytes⟩
      = .ok ⟨"tok", some (3600 * Calendar.second)⟩ :=
    ShopClient.tokenOf_document "tok" (by decide) (by decide) rfl
  have hheader : ShopClient.isHeaderText "tok" = true := by decide +kernel
  exact ShopClient.runFrom_send_granted (c := client) rfl rfl rfl htoken hheader rfl rfl

def store : RowStore where
  name := "product"
  columns := BulkEditor.products.columns
  partitionCount := 1
  partitionCount_pos := Nat.one_pos
  stored := [⟨1, [.text "1"]⟩, ⟨2, [.text "2"]⟩]
  savepoints := []

theorem storeOf_eq : Session.storeOf BulkEditor.products 1 records = .ok store := rfl

theorem runFrom_scan (ctx : Context) : (TableHandle.scan ctx).runFrom (⟨client, []⟩, handle)
    = (.ok store.rows, ⟨asked, [store]⟩, { handle with memory := some 0 }) := by
  have hread : SearchAnswer.read? (SearchAnswer.answerDocument records 2).bytes
      = some ⟨some 2, records⟩ :=
    SearchAnswer.read?_answerDocument (by decide) (by decide)
      (by simp [records, Json.ReadableFields, Json.Readable])
  exact TableHandle.runFrom_scan ctx (runFrom_search ctx) hread storeOf_eq

/-- The shop lets one of the products go. -/
theorem exists_deleteMatching : ∃ s' t', (TableHandle.deleteMatching ⟨"q"⟩ fun row =>
      pure (Filter.allPass [⟨0, "2"⟩] row)).runFrom (⟨client, []⟩, handle) = (.ok 1, s', t') := by
  rcases hmatch : (TableHandle.deleteMatching ⟨"q"⟩ fun row =>
    pure (Filter.allPass [⟨0, "2"⟩] row)).runFrom (⟨client, []⟩, handle) with ⟨counted, s', t'⟩
  have hscanned := (Step.runFrom_bind_of_ok (runFrom_scan ⟨"q"⟩)).symm.trans hmatch
  have hcount : counted.toOption = some 1 := by
    have hsame := congrArg Prod.fst hscanned
    change _ = counted at hsame
    rw [← hsame]
    decide +kernel
  cases counted with
  | error e => cases hcount
  | ok n =>
    obtain rfl := Option.some.inj hcount
    exact ⟨s', t', rfl⟩

/-- The command deletes it. -/
theorem exists_run_delete : ∃ w, (Invocation.run ⟨options, .delete "product" ["id=2"] false⟩ files
    ⟨"q"⟩).runFrom start = (.ok "Deleted 1 rows from product.\n", w) := by
  obtain ⟨s', t', hmatch⟩ := exists_deleteMatching
  have hread : Filter.readAll handle.definition ["id=2"] = .ok [⟨0, "2"⟩] := rfl
  have hdelete : (Invocation.delete ⟨"q"⟩ "product" ["id=2"] false).runFrom (⟨client, []⟩, handle)
      = (.ok "Deleted 1 rows from product.\n", s', t') := by
    rw [Invocation.runFrom_delete, hread]
    dsimp only
    rw [if_neg Bool.false_ne_true, Step.runFrom_bind_pure, Step.runFrom_mapError, hmatch]
    rfl
  have hrun := runFrom_withTable ⟨"q"⟩ (Invocation.delete ⟨"q"⟩ "product" ["id=2"] false)
  rw [hdelete] at hrun
  exact ⟨s'.api.network, hrun⟩

end Obliging

namespace Invocation

/-- Of the two products, one has the identifier `2`: the dry run counts it, and the delete names it
to the shop. A filter for prices, of which there are none, stops both. -/
theorem delete_agrees_products :
    (∃ (w₂ w₃ : Logged Obliging) (keys : List RecordKey) (sent : Outgoing),
      (run ⟨Obliging.options, .delete "product" ["id=2"] true⟩ Obliging.files ⟨"q"⟩).runFrom
            Obliging.start = (.ok "Would delete 1 rows from product.\n", w₂)
        ∧ (run ⟨Obliging.options, .delete "product" ["id=2"] false⟩ Obliging.files ⟨"q"⟩).runFrom
            Obliging.start = (.ok "Deleted 1 rows from product.\n", w₃)
        ∧ w₃.requestsTo "http://s/api/_action/sync" = [sent] ∧ sent.Deletes BulkEditor.products keys
        ∧ keys.length = 1)
      ∧ ∃ e, ∀ dryRun, (run ⟨Obliging.options, .delete "product" ["id=2", "price=3", "id"] dryRun⟩
          Obliging.files ⟨"q"⟩).runFrom Obliging.start
        = (.error (.filter e), Obliging.start) := by
  have hopen : (Obliging.options.tableOf Obliging.files ⟨"q"⟩ "product").runFrom Obliging.start
      = (.ok BulkEditor.products, Obliging.start) := (Obliging.runFrom_withTable ⟨"q"⟩ _).trans rfl
  have hrows : (Obliging.options.rowsOf Obliging.files ⟨"q"⟩ "product").runFrom Obliging.start
      = (.ok Obliging.store.rows, Obliging.asked.network) := by
    rw [Options.rowsOf, Obliging.runFrom_withTable, readRows, Step.runFrom_mapError,
      Obliging.runFrom_scan]
    rfl
  have hid : BulkEditor.products.Filterable "id" :=
    ⟨by decide +kernel, by decide +kernel, by decide +kernel⟩
  have hwritten : [("id", "2")].map Filter.written = ["id=2"] := by decide +kernel
  have hshowing : BulkEditor.products.showing [("id", "2")] Obliging.store.rows
      = [[.text "2"]] := by decide +kernel
  have hbase : Obliging.config.baseUrl = "http://s" := by decide +kernel
  obtain ⟨hagree, -, hrefused⟩ := delete_agrees Obliging.loadConfig_eq hopen
  constructor
  · obtain ⟨hdry, hdelete⟩ := hagree [("id", "2")] _ _ (by simpa using hid) hrows
    rw [hwritten, hshowing] at hdry hdelete
    obtain ⟨w₃, hreal⟩ := Obliging.exists_run_delete
    obtain ⟨-, keys, -, hlength, htold⟩ := hdelete _ _ hreal
    rw [Logged.Told, if_neg (by rintro rfl; cases hlength), hbase] at htold
    obtain ⟨sent, hrequests, hdeletes⟩ := htold
    exact ⟨_, w₃, keys, sent, hdry, hreal, hrequests, hdeletes, hlength⟩
  · obtain ⟨⟨_, _, _, e, -, -, -, hstop⟩, -⟩ := hrefused ["id=2", "price=3", "id"]
      ⟨"id", by decide, _, .malformed (by decide +kernel)⟩
    exact ⟨e, hstop⟩

end Invocation

end ShopTables
