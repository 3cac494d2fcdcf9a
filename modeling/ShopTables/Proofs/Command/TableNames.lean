import Mathlib.Data.List.Nodup
import ShopTables.Command.Run
import ShopTables.Proofs.Json.RoundTrip
import ShopTables.Proofs.KeyList
import ShopTables.Proofs.Step

/-!
# Tables by name

A table has two names: the one its entity is registered under, and the one it is called by, which
is the entity's own unless that is empty. Tables are opened, and printed by the command `tables`, by
the first; a database lists them, and the command `describe` finds them, by the second. As long as
each kind of name tells the tables apart, both lookups find what they look for (`openTable_eq_ok`,
`findTable_eq_ok`), so they agree exactly if the two names of each table do, but for ASCII case
(`Registry.NamesAgree`, `lookups_agree_iff`).
-/

namespace ShopTables

/-- Each table is called as it is registered, but for ASCII case. -/
def Registry.NamesAgree (r : Registry) : Prop :=
  ∀ p ∈ r.definitions, Text.lowerAscii p.2.name = Text.lowerAscii p.1

/-- Every name that the database lists opens, in any ASCII case, a table that is called so. -/
def Registry.ListedOpened (r : Registry) (config : AdapterConfig) : Prop :=
  ∀ listed ∈ (Database.ofRegistry config r).names, ∀ name,
    Text.lowerAscii name = Text.lowerAscii listed →
    ∃ t, (Database.ofRegistry config r).openTable name = .ok t ∧ t.definition.name = listed

/-- Every name that a table is registered under opens and describes one table, in any ASCII
case. -/
def Registry.PrintedFound (r : Registry) (config : AdapterConfig) : Prop :=
  ∀ p ∈ r.definitions, ∀ name, Text.lowerAscii name = Text.lowerAscii p.1 →
    ∃ t, (Database.ofRegistry config r).openTable name = .ok t
      ∧ Invocation.findTable r.definitions name = .ok t.definition

/-- No two tables are registered under one name, but for ASCII case, nor called by one. -/
structure Registry.Distinct (r : Registry) : Prop where
  registered : (r.definitions.map fun p => Text.lowerAscii p.1).Nodup
  called : (r.definitions.map fun p => Text.lowerAscii p.2.name).Nodup

namespace Registry.Distinct

variable {r : Registry} {p q : String × TableDefinition}

theorem eq_of_registered (h : r.Distinct) (hp : p ∈ r.definitions) (hq : q ∈ r.definitions)
    (hname : Text.lowerAscii p.1 = Text.lowerAscii q.1) : p = q :=
  List.inj_on_of_nodup_map h.registered hp hq hname

theorem eq_of_called (h : r.Distinct) (hp : p ∈ r.definitions) (hq : q ∈ r.definitions)
    (hname : Text.lowerAscii p.2.name = Text.lowerAscii q.2.name) : p = q :=
  List.inj_on_of_nodup_map h.called hp hq hname

end Registry.Distinct

/-! ### The lookups -/

section

variable {r : Registry} (h : r.Distinct) (config : AdapterConfig)

include h

theorem perm_tables : (Database.ofRegistry config r).tables.Perm
    (r.definitions.map fun p => (Text.lowerAscii p.1, p.2)) := by
  refine KeyList.perm_ofList ?_
  rw [List.map_map]
  exact h.registered

/-- The table that is opened is the one registered under the name. -/
theorem openTable_eq_ok {name : String} {t : TableHandle} :
    (Database.ofRegistry config r).openTable name = .ok t ↔
      ∃ p ∈ r.definitions, Text.lowerAscii name = Text.lowerAscii p.1
        ∧ t = { definition := p.2, partitionCount := config.partitions } := by
  have hkeys : (KeyList.keys (Database.ofRegistry config r).tables).Nodup :=
    (KeyList.sorted_ofList _).nodup_keys
  constructor
  · intro hopen
    unfold Database.openTable at hopen
    cases hget : KeyList.get? (Database.ofRegistry config r).tables (Text.lowerAscii name) with
    | none =>
      rw [hget] at hopen
      cases hopen
    | some d =>
      rw [hget] at hopen
      have hmem := (perm_tables h config).subset (KeyList.mem_of_get? hget)
      obtain ⟨p, hp, hpair⟩ := List.mem_map.mp hmem
      obtain ⟨hname, rfl⟩ := Prod.mk.inj hpair
      exact ⟨p, hp, hname.symm, (Except.ok.inj hopen).symm⟩
  · rintro ⟨p, hp, hname, rfl⟩
    have hmem : (Text.lowerAscii name, p.2) ∈ (Database.ofRegistry config r).tables := by
      rw [hname]
      exact (perm_tables h config).mem_iff.mpr (List.mem_map_of_mem hp)
    rw [Database.openTable, KeyList.get?_of_mem hkeys hmem]
    rfl

theorem mem_names {listed : String} :
    listed ∈ (Database.ofRegistry config r).names ↔ ∃ p ∈ r.definitions, p.2.name = listed := by
  have hperm := (perm_tables h config).map fun p => p.2.name
  rw [List.map_map] at hperm
  rw [Database.names, List.mem_mergeSort, hperm.mem_iff, List.mem_map]
  rfl

/-- The table that is described is the one called by the name. -/
theorem findTable_eq_ok {name : String} {d : TableDefinition} :
    Invocation.findTable r.definitions name = .ok d ↔
      ∃ p ∈ r.definitions, Text.lowerAscii name = Text.lowerAscii p.2.name ∧ d = p.2 := by
  unfold Invocation.findTable
  dsimp only
  generalize hfind : (r.definitions.map (·.2)).find?
    (fun d => Text.lowerAscii d.name == Text.lowerAscii name) = found
  cases found with
  | none =>
    have hnone := List.find?_eq_none.mp hfind
    constructor
    · intro hok
      cases hok
    · rintro ⟨p, hp, hname, rfl⟩
      exact absurd (beq_iff_eq.mpr hname.symm) (hnone p.2 (List.mem_map_of_mem hp))
  | some d' =>
    obtain ⟨q, hq, rfl⟩ := List.mem_map.mp (List.mem_of_find?_eq_some hfind)
    have hwanted : (Text.lowerAscii q.2.name == Text.lowerAscii name) = true := List.find?_some
      (p := fun d : TableDefinition => Text.lowerAscii d.name == Text.lowerAscii name) hfind
    have hname := beq_iff_eq.mp hwanted
    constructor
    · intro hok
      exact ⟨q, hq, hname.symm, (Except.ok.inj hok).symm⟩
    · rintro ⟨p, hp, hcalled, rfl⟩
      rw [h.eq_of_called hq hp (hname.trans hcalled)]

end

/-- A name that no table is called by is not found. -/
theorem findTable_of_not_called {definitions : KeyList TableDefinition} {name : String}
    (h : ∀ p ∈ definitions, Text.lowerAscii p.2.name ≠ Text.lowerAscii name) :
    Invocation.findTable definitions name = .error (.table (.tableNotFound name)) := by
  have hnone : (definitions.map (·.2)).find?
      (fun d => Text.lowerAscii d.name == Text.lowerAscii name) = none := by
    rw [List.find?_eq_none]
    intro d hd hwanted
    obtain ⟨p, hp, rfl⟩ := List.mem_map.mp hd
    exact h p hp (beq_iff_eq.mp hwanted)
  unfold Invocation.findTable
  dsimp only
  rw [hnone]

/-! ### What the commands look up -/

section

variable {ω : Type} [Network ω] {o : Options} {files : Files} {ctx : Context} {w w' : ω}
  {r : Registry} (hload : (o.loadRegistry files ctx).runFrom w = (.ok r, w'))

include hload

theorem runFrom_tables :
    (Invocation.run ⟨o, .tables⟩ files ctx).runFrom w
      = (.ok (Listing.tables r.definitions), w') :=
  Step.runFrom_bind_of_ok hload

theorem runFrom_describe (name : String) :
    (Invocation.run ⟨o, .describe name⟩ files ctx).runFrom w
      = ((Invocation.findTable r.definitions name).map Listing.describe, w') := by
  refine (Step.runFrom_bind_of_ok hload).trans ?_
  cases Invocation.findTable r.definitions name with
  | error e => rfl
  | ok d => rfl

end

theorem runFrom_withClient {ω α : Type} [Network ω] {w : ω} {config : ShopConfig}
    {client : ShopClient ω} (hclient : ShopClient.ofConfig config w = .ok client)
    (x : Step CommandError (ShopClient ω) α) :
    (Options.withClient config x).runFrom w
      = ((x.runFrom client).1, (x.runFrom client).2.network) := by
  rw [Options.withClient, Step.runFrom_ofFn]
  dsimp only
  rw [hclient]

section

variable {ω : Type} [Network ω] {o : Options} {files : Files} {ctx : Context} {w w' : ω}
  {r : Registry} (hload : (o.loadRegistry files ctx).runFrom w = (.ok r, w'))
  {config : ShopConfig} (hconfig : o.loadConfig files = .ok config) {client : ShopClient ω}
  (hclient : ShopClient.ofConfig config w = .ok client)

include hload hconfig hclient

/-- The database of the commands for rows is that of the registry that the other commands have. -/
theorem exists_runFrom_connect : ∃ client' : ShopClient ω,
    (o.connect files ctx config).runFrom client
      = (.ok (Database.ofRegistry config.adapter r), client') := by
  unfold Options.loadRegistry at hload
  unfold Options.connect
  cases hfile : o.schemaFile with
  | some path =>
    rw [hfile] at hload
    obtain ⟨hread, -⟩ := Prod.mk.inj hload
    have hfetch : (Step.ofExcept (Options.readSchema files path)).runFrom client
        = (.ok r, client) := by
      rw [Step.runFrom_ofExcept, hread]
    refine ⟨client, ?_⟩
    dsimp only
    rw [Step.runFrom_bind_of_ok hfetch]
    rfl
  | none =>
    rw [hfile] at hload
    dsimp only at hload
    rw [hconfig, Step.runFrom_bind_of_ok (Step.runFrom_ofExcept _ w), runFrom_withClient hclient,
      Step.runFrom_mapError] at hload
    rcases hfetch : (Registry.load ctx).runFrom client with ⟨result, client'⟩
    rw [hfetch] at hload
    obtain ⟨hresult, -⟩ := Prod.mk.inj hload
    cases result with
    | error e => cases hresult
    | ok r' =>
      obtain rfl : r' = r := Except.ok.inj hresult
      refine ⟨client', ?_⟩
      dsimp only
      rw [Step.runFrom_mapError, Database.connect, Step.runFrom_bind_of_ok hfetch]
      rfl

/-- The commands for rows work on the table that is opened in that database. -/
theorem exists_runFrom_withTable : ∃ client' : ShopClient ω, ∀ {α : Type} (name : String)
    (x : Step CommandError (Session (ShopClient ω) × TableHandle) α),
    (o.withTable files ctx name x).runFrom w =
      match (Database.ofRegistry config.adapter r).openTable name with
      | .error e => (.error (.table e), client'.network)
      | .ok t =>
        ((x.runFrom (⟨client', []⟩, t)).1, (x.runFrom (⟨client', []⟩, t)).2.1.api.network) := by
  obtain ⟨client', hconnect⟩ := exists_runFrom_connect hload hconfig hclient
  refine ⟨client', fun name x => ?_⟩
  unfold Options.withTable
  rw [hconfig, Step.runFrom_bind_of_ok (Step.runFrom_ofExcept _ w), runFrom_withClient hclient,
    Step.runFrom_bind_of_ok hconnect]
  cases (Database.ofRegistry config.adapter r).openTable name with
  | error e => rfl
  | ok t => rfl

end

/-! ### Listing and lookup -/

section

variable {r : Registry} (h : r.Distinct) (config : AdapterConfig)

include h

theorem listedOpened_iff : r.ListedOpened config ↔ r.NamesAgree := by
  constructor
  · intro hlisted p hp
    obtain ⟨t, hopen, hname⟩ :=
      hlisted p.2.name ((mem_names h config).mpr ⟨p, hp, rfl⟩) p.2.name rfl
    obtain ⟨q, hq, hregistered, rfl⟩ := (openTable_eq_ok h config).mp hopen
    -- the table that is opened is called as `p` is, so it is `p`
    have hcalled : q.2.name = p.2.name := hname
    rw [hregistered, h.eq_of_called hq hp (congrArg _ hcalled)]
  · intro hagree listed hlisted name hname
    obtain ⟨p, hp, rfl⟩ := (mem_names h config).mp hlisted
    exact ⟨_, (openTable_eq_ok h config).mpr ⟨p, hp, hname.trans (hagree p hp), rfl⟩, rfl⟩

theorem printedFound_iff : r.PrintedFound config ↔ r.NamesAgree := by
  constructor
  · intro hfound p hp
    obtain ⟨t, hopen, hfind⟩ := hfound p hp p.1 rfl
    obtain ⟨q, hq, hregistered, rfl⟩ := (openTable_eq_ok h config).mp hopen
    obtain ⟨q', hq', hcalled, hsame⟩ := (findTable_eq_ok h).mp hfind
    have hname : q.2.name = q'.2.name := congrArg TableDefinition.name hsame
    rw [hcalled, ← hname, h.eq_of_registered hp hq hregistered]
  · intro hagree p hp name hname
    exact ⟨_, (openTable_eq_ok h config).mpr ⟨p, hp, hname, rfl⟩,
      (findTable_eq_ok h).mpr ⟨p, hp, hname.trans (hagree p hp).symm, rfl⟩⟩

/-- A registry whose tables are told apart by the names they are registered under, and by those
they are called by, but for ASCII case. A name in any case opens the table that is registered under
it, and describes the one called by it. So the names that a database lists open tables called so,
and what `tables` prints is found by `describe`, `select` and `delete` as one definition, in any
case, exactly if each table is called as it is registered, but for ASCII case. What `tables` prints
are the registered names, `describe` looks a name up among the names tables are called by, and
`select` and `delete` work on the table that is opened. -/
theorem lookups_agree_iff :
    (∀ p ∈ r.definitions, ∀ name, Text.lowerAscii name = Text.lowerAscii p.1 →
        (Database.ofRegistry config r).openTable name
          = .ok { definition := p.2, partitionCount := config.partitions })
      ∧ (∀ p ∈ r.definitions, ∀ name, Text.lowerAscii name = Text.lowerAscii p.2.name →
          Invocation.findTable r.definitions name = .ok p.2)
      ∧ (r.ListedOpened config ↔ r.NamesAgree) ∧ (r.PrintedFound config ↔ r.NamesAgree)
      ∧ ∀ {ω : Type} [Network ω] (o : Options) (files : Files) (ctx : Context) (w w' : ω),
          (o.loadRegistry files ctx).runFrom w = (.ok r, w') →
          (Invocation.run ⟨o, .tables⟩ files ctx).runFrom w
              = (.ok (Listing.tables r.definitions), w')
            ∧ (∀ name, (Invocation.run ⟨o, .describe name⟩ files ctx).runFrom w
                = ((Invocation.findTable r.definitions name).map Listing.describe, w'))
            ∧ ∀ (shop : ShopConfig) (client : ShopClient ω), o.loadConfig files = .ok shop →
                ShopClient.ofConfig shop w = .ok client →
                ∃ client' : ShopClient ω, ∀ {α : Type} (name : String)
                  (x : Step CommandError (Session (ShopClient ω) × TableHandle) α),
                  (o.withTable files ctx name x).runFrom w =
                    match (Database.ofRegistry shop.adapter r).openTable name with
                    | .error e => (.error (.table e), client'.network)
                    | .ok t => ((x.runFrom (⟨client', []⟩, t)).1,
                        (x.runFrom (⟨client', []⟩, t)).2.1.api.network) :=
  ⟨fun p hp _ hname => (openTable_eq_ok h config).mpr ⟨p, hp, hname, rfl⟩,
    fun p hp _ hname => (findTable_eq_ok h).mpr ⟨p, hp, hname, rfl⟩,
    listedOpened_iff h config, printedFound_iff h config,
    fun _ _ _ _ _ hload => ⟨runFrom_tables hload, runFrom_describe hload,
      fun _ _ hconfig hclient => exists_runFrom_withTable hload hconfig hclient⟩⟩

end

/-- The tables of two entities, one of them without a name of its own. -/
def namedTables : Registry := ⟨[("Product", { name := "product" }), ("tax", {})], .memory⟩

/-- Both names of a table open it and describe it. -/
theorem lookups_agree_namedTables :
    namedTables.Distinct ∧ namedTables.ListedOpened {} ∧ namedTables.PrintedFound {}
      ∧ Invocation.findTable namedTables.definitions "TAX"
          = .ok { name := "tax", columns := [], isMapping := false } := by
  have hdistinct : namedTables.Distinct := ⟨by decide +kernel, by decide +kernel⟩
  have hagree : namedTables.NamesAgree := by
    rw [Registry.NamesAgree]
    decide +kernel
  obtain ⟨-, hfind, hlisted, hprinted, -⟩ := lookups_agree_iff hdistinct {}
  exact ⟨hdistinct, hlisted.mpr hagree, hprinted.mpr hagree,
    hfind ("tax", _) (by decide +kernel) "TAX" (by decide +kernel)⟩

/-- The schema of one entity that is registered under another name than its own. -/
def misnamedSchema : Json :=
  .object [("a", .object [("entity", .string "b"), ("properties", .object [])])]

/-- Its table is printed as `a`, which `describe` does not find, and listed as `b`, which cannot be
opened. -/
theorem misnamed_not_found :
    ∃ r, Registry.ofFile "schema.json" (.bytes misnamedSchema.bytes) = .ok r ∧ r.Distinct
      ∧ Listing.tables r.definitions = "a\n"
      ∧ Invocation.findTable r.definitions "a" = .error (.table (.tableNotFound "a"))
      ∧ "b" ∈ (Database.ofRegistry {} r).names
      ∧ (Database.ofRegistry {} r).openTable "b" = .error (.tableNotFound "b") := by
  have hreadable : Json.Readable 3 misnamedSchema := by
    simp [misnamedSchema, Json.Readable, Json.ReadableFields]
  have hread : Entity.readSchema? misnamedSchema.bytes = some [("a", { name := "b" })] := by
    rw [Entity.readSchema?, Json.outlineRead?_bytes hreadable]
    rfl
  let r : Registry := ⟨[("a", { name := "b" })], .file "schema.json"⟩
  have hdistinct : r.Distinct := ⟨by decide +kernel, by decide +kernel⟩
  refine ⟨r, ?_, hdistinct, by decide +kernel,
    findTable_of_not_called (by decide +kernel),
    (mem_names hdistinct {}).mpr (by decide +kernel), rfl⟩
  rw [Registry.ofFile, hread]

end ShopTables
