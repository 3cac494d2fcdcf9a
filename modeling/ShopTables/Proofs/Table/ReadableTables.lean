import ShopTables.Api.Canned
import ShopTables.Database
import ShopTables.Proofs.Api.Search
import ShopTables.Proofs.Json.RoundTrip
import ShopTables.Proofs.Schema.Definition
import ShopTables.Proofs.Table.Materialization

/-!
# Which tables can be read

Every entity becomes a table, but its row store may refuse the layout. If no name has a NUL and
there are not too many properties, two causes are left: a name that the store keeps for itself, and
two columns whose names differ in ASCII case at most. Without them, a table that the shop answers
with no records is read and has no rows; with them no reading of it ever succeeds
(`TableHandle.scan_no_records`).
-/

namespace ShopTables

/-! ### Names -/

namespace Entity

/-- No name has a NUL, and there are fewer properties than a table may have columns. -/
structure Plain (registered : String) (e : Entity) : Prop where
  registered : RowStore.nul ∉ registered.toList
  name : RowStore.nul ∉ e.name.toList
  properties : ∀ p ∈ e.properties, RowStore.nul ∉ p.1.toList
  few : e.properties.length < RowStore.maxColumns

end Entity

namespace TableDefinition

theorem perm_smallNames (registered : String) (e : Entity) (mapping : Bool) :
    (RowStore.smallNames (ofEntity registered e mapping).columns).Perm
      (e.columnNames.map Text.lowerAscii) := by
  have hperm := (perm_names registered e mapping).map Text.lowerAscii
  rw [List.map_map] at hperm
  exact hperm

/-! ### What can be wrong with the table of an entity -/

section

variable {registered : String} {e : Entity} (h : e.Plain registered) (mapping : Bool)

include h

theorem nul_notMem_name : RowStore.nul ∉ (ofEntity registered e mapping).name.toList := by
  rw [ofEntity]
  dsimp only
  split_ifs
  · exact h.registered
  · exact h.name

theorem nul_notMem_columns :
    ∀ c ∈ (ofEntity registered e mapping).columns, RowStore.nul ∉ c.name.toList := by
  intro c hc
  have hname := (perm_names registered e mapping).subset (List.mem_map_of_mem hc)
  obtain ⟨p, hp, hpc⟩ := List.mem_map.mp hname
  rw [← hpc]
  exact h.properties p (List.mem_of_mem_filter hp)

theorem length_columns_lt :
    (ofEntity registered e mapping).columns.length < RowStore.maxColumns := by
  have hlength := (perm_names registered e mapping).length_eq
  rw [List.length_map, Entity.columnNames, List.length_map] at hlength
  have hfilter := e.properties.length_filter_le fun p => !p.2.isAssociation
  have := h.few
  omega

theorem fault?_of_isReserved
    (hreserved : RowStore.isReserved (ofEntity registered e mapping).name = true) :
    RowStore.fault? (ofEntity registered e mapping).name (ofEntity registered e mapping).columns
      = some (.reservedName (ofEntity registered e mapping).name) := by
  rw [RowStore.fault?, if_neg (by rw [List.contains_iff_mem]; exact nul_notMem_name h mapping),
    if_pos hreserved]

theorem fault?_of_nodup
    (hreserved : RowStore.isReserved (ofEntity registered e mapping).name = false)
    (hnames : (e.columnNames.map Text.lowerAscii).Nodup) :
    RowStore.fault? (ofEntity registered e mapping).name (ofEntity registered e mapping).columns
      = none :=
  RowStore.fault?_eq_none.mpr ⟨nul_notMem_name h mapping, hreserved, nul_notMem_columns h mapping,
    (length_columns_lt h mapping).le, (perm_smallNames registered e mapping).nodup_iff.mpr hnames⟩

theorem fault?_of_repeated
    (hreserved : RowStore.isReserved (ofEntity registered e mapping).name = false)
    (hnames : ¬ (e.columnNames.map Text.lowerAscii).Nodup) :
    ∃ before c after, (ofEntity registered e mapping).columns = before ++ c :: after
      ∧ (RowStore.smallNames before).Nodup ∧ Text.lowerAscii c.name ∈ RowStore.smallNames before
      ∧ RowStore.fault? (ofEntity registered e mapping).name
          (ofEntity registered e mapping).columns = some (.duplicateColumn c.name) := by
  rw [RowStore.fault?, if_neg (by rw [List.contains_iff_mem]; exact nul_notMem_name h mapping),
    if_neg (Bool.eq_false_iff.mp hreserved)]
  have hrepeated : ¬ RowStore.NewNames [] (ofEntity registered e mapping).columns := by
    rw [RowStore.newNames_start, (perm_smallNames registered e mapping).nodup_iff]
    exact hnames
  have hwide : ([] : List String).length + (ofEntity registered e mapping).columns.length
      ≤ RowStore.maxColumns := by
    have := length_columns_lt h mapping
    rw [List.length_nil]
    omega
  obtain ⟨before, c, after, hcolumns, hnew, hmem, hfault⟩ :=
    RowStore.faultOfColumns?_of_repeated (nul_notMem_columns h mapping) hwide hrepeated
  exact ⟨before, c, after, hcolumns, RowStore.newNames_start.mp hnew, hmem, hfault⟩

end

end TableDefinition

/-! ### The tables of a database -/

/-- A table that is opened is the table of an entity. -/
theorem Database.exists_entity_of_openTable {config : AdapterConfig} {r : Registry} {name : String}
    {t : TableHandle} (h : (ofRegistry config r).openTable name = .ok t) :
    ∃ registered e, (registered, e) ∈ r.entities
      ∧ t = { definition := .ofEntity registered e (r.isMapping registered),
              partitionCount := config.partitions } := by
  unfold openTable at h
  cases hget : KeyList.get? (ofRegistry config r).tables (Text.lowerAscii name) with
  | none =>
    rw [hget] at h
    cases h
  | some d =>
    rw [hget] at h
    obtain ⟨p, hp, hpair⟩ := List.mem_map.mp (KeyList.ofList_subset _ (KeyList.mem_of_get? hget))
    obtain ⟨⟨registered, e⟩, he, rfl⟩ := List.mem_map.mp hp
    obtain ⟨-, rfl⟩ := Prod.mk.inj hpair
    exact ⟨registered, e, he, (Except.ok.inj h).symm⟩

namespace TableHandle

variable {σ : Type} [Api σ]

section

variable {ctx : Context} {s : Session σ} {t : TableHandle} {bytes : List UInt8}
  {found : SearchAnswer} (hanswer : s.answer ctx t.definition = .ok bytes)
  (hread : SearchAnswer.read? bytes = some found) (hnone : found.records = [])

include hanswer hread hnone

/-- Without records, what is wrong with the table is what the scan fails with. -/
theorem scan_of_fault {e : StoreError}
    (hfault : RowStore.fault? t.definition.name t.definition.columns = some e) :
    ((scan ctx).runFrom (s, t)).1 = .error (.store e) := by
  rw [runFrom_scan_eq, fst_reading, hanswer, TableDefinition.storeOfAnswer, Api.readAnswer, hread]
  dsimp only
  rw [hnone, Session.storeOf, RowStore.create, hfault]
  rfl

/-- If nothing is wrong with it, there are no rows. -/
theorem scan_of_no_fault
    (hfault : RowStore.fault? t.definition.name t.definition.columns = none) :
    ((scan ctx).runFrom (s, t)).1 = .ok [] := by
  have haccepted : t.definition.Accepts (s.answer ctx t.definition) [] :=
    ⟨⟨bytes, found, hanswer, hread, hnone ▸ .nil⟩, hfault, nofun⟩
  obtain ⟨store, hstore, hfilled⟩ :=
    TableDefinition.exists_storeOfAnswer haccepted t.partitionCount
  have hempty : store.stored = [] := List.map_eq_nil_iff.mp hfilled.cells
  have hrows : store.rows = [] := List.eq_nil_iff_forall_not_mem.mpr fun row hrow => by
    obtain ⟨r, hr, -⟩ := RowStore.exists_stored_of_mem_rows hrow
    rw [hempty] at hr
    cases hr
  rw [runFrom_scan_eq, fst_reading, hstore, ← hrows]
  rfl

end

/-- The tables of a database whose entities have plain names, when the shop answers with no records:
the scan gives no rows exactly if the table's name is not reserved and no two columns have the same
name but for ASCII case. If the name is reserved, the scan fails with that; and else with the first
column whose name is that of one before it, but for ASCII case. -/
theorem scan_no_records {r : Registry} (hplain : ∀ p ∈ r.entities, p.2.Plain p.1)
    {config : AdapterConfig} {name : String} {t : TableHandle}
    (hopen : (Database.ofRegistry config r).openTable name = .ok t) {ctx : Context} {s : Session σ}
    {bytes : List UInt8} {found : SearchAnswer} (hanswer : s.answer ctx t.definition = .ok bytes)
    (hread : SearchAnswer.read? bytes = some found) (hnone : found.records = []) :
    ∃ registered e, (registered, e) ∈ r.entities
      ∧ t.definition = .ofEntity registered e (r.isMapping registered)
      ∧ (((scan ctx).runFrom (s, t)).1 = .ok []
          ↔ RowStore.isReserved t.definition.name = false
            ∧ (e.columnNames.map Text.lowerAscii).Nodup)
      ∧ (RowStore.isReserved t.definition.name = true →
          ((scan ctx).runFrom (s, t)).1 = .error (.store (.reservedName t.definition.name)))
      ∧ (RowStore.isReserved t.definition.name = false →
          ¬ (e.columnNames.map Text.lowerAscii).Nodup →
          ∃ before c after, t.definition.columns = before ++ c :: after
            ∧ (RowStore.smallNames before).Nodup
            ∧ Text.lowerAscii c.name ∈ RowStore.smallNames before
            ∧ ((scan ctx).runFrom (s, t)).1 = .error (.store (.duplicateColumn c.name))) := by
  obtain ⟨registered, e, he, rfl⟩ := Database.exists_entity_of_openTable hopen
  have h : e.Plain registered := hplain _ he
  have hfault := fun {cause} => scan_of_fault (e := cause) hanswer hread hnone
  refine ⟨registered, e, he, rfl, ⟨?_, ?_⟩, ?_, ?_⟩
  · intro hok
    -- each of the two causes would make the scan fail
    cases hname : RowStore.isReserved
        (TableDefinition.ofEntity registered e (r.isMapping registered)).name with
    | true =>
      rw [hfault (TableDefinition.fault?_of_isReserved h _ hname)] at hok
      cases hok
    | false =>
      refine ⟨rfl, by_contra fun hnames => ?_⟩
      obtain ⟨_, _, _, -, -, -, hrepeated⟩ :=
        TableDefinition.fault?_of_repeated h (r.isMapping registered) hname hnames
      rw [hfault hrepeated] at hok
      cases hok
  · rintro ⟨hname, hnames⟩
    apply scan_of_no_fault hanswer hread hnone
    exact TableDefinition.fault?_of_nodup h _ hname hnames
  · intro hname
    exact hfault (TableDefinition.fault?_of_isReserved h _ hname)
  · intro hname hnames
    obtain ⟨before, c, after, hcolumns, hnodup, hmem, hrepeated⟩ :=
      TableDefinition.fault?_of_repeated h (r.isMapping registered) hname hnames
    exact ⟨before, c, after, hcolumns, hnodup, hmem, hfault hrepeated⟩

/-! ### Shops without records -/

/-- A shop that has no records of these entities. -/
def emptyShop (entities : List String) : Session CannedApi where
  api := entities.foldl (fun a entity => a.withSearch entity (.array [])) CannedApi.start

theorem read?_no_records :
    SearchAnswer.read? (SearchAnswer.answerDocument [] 0).bytes = some ⟨some 0, []⟩ :=
  SearchAnswer.read?_answerDocument (by decide) (by decide) nofun

/-- Taxes, with a key and a property called like a word of the store's language. -/
def taxes : Registry where
  entities :=
    [("tax", ⟨"tax", [("group", .ofKind "string"), ("id", (Property.ofKind "uuid").markPrimary)]⟩)]
  source := .memory

/-- The table of taxes is read, and has no rows. -/
theorem scan_no_records_taxes :
    ∃ t, (Database.ofRegistry {} taxes).openTable "TAX" = .ok t
      ∧ ((scan ⟨"q"⟩).runFrom (emptyShop ["tax"], t)).1 = .ok [] := by
  have hplain : ∀ p ∈ taxes.entities, p.2.Plain p.1 := by
    intro p hp
    obtain rfl := List.mem_singleton.mp hp
    exact ⟨by decide, by decide, by decide, by decide⟩
  obtain ⟨t, hopen⟩ : ∃ t, (Database.ofRegistry {} taxes).openTable "TAX" = .ok t := ⟨_, rfl⟩
  have hanswer : (emptyShop ["tax"]).answer ⟨"q"⟩ t.definition
      = .ok (SearchAnswer.answerDocument [] 0).bytes := by
    obtain rfl := Except.ok.inj hopen
    rfl
  obtain ⟨registered, e, he, hdefinition, hscan, -⟩ :=
    scan_no_records hplain hopen hanswer read?_no_records rfl
  obtain ⟨rfl, rfl⟩ := Prod.mk.inj (List.mem_singleton.mp he)
  rw [hdefinition] at hscan
  exact ⟨t, hopen, hscan.mpr ⟨by decide, by decide⟩⟩

/-- A schema with two properties whose names differ in case only, and with an entity whose name is
reserved. -/
def unreadableSchema : Json :=
  .object [("product", .object [("entity", .string "product"), ("properties", .object
      [("Name", .object [("type", .string "string")]),
        ("id", .object [("type", .string "uuid"),
          ("flags", .object [("primary_key", .bool true)])]),
        ("name", .object [("type", .string "string")])])]),
    ("sqlite_log", .object [("entity", .string "sqlite_log"), ("properties", .object [])])]

/-- The entities that are read from it. -/
def unreadableEntities : KeyList Entity :=
  [("product", ⟨"product", [("Name", .ofKind "string"),
      ("id", (Property.ofKind "uuid").markPrimary), ("name", .ofKind "string")]⟩),
    ("sqlite_log", ⟨"sqlite_log", []⟩)]

/-- Their tables are there and the shop answers with no records, but neither can be scanned. -/
theorem unreadable_tables :
    ∃ r t t', Registry.ofFile "schema.json" (.bytes unreadableSchema.bytes) = .ok r
      ∧ (∀ p ∈ r.entities, p.2.Plain p.1)
      ∧ (Database.ofRegistry {} r).openTable "product" = .ok t
      ∧ (Database.ofRegistry {} r).openTable "sqlite_log" = .ok t'
      ∧ ((scan ⟨"q"⟩).runFrom (emptyShop ["product", "sqlite_log"], t)).1
          = .error (.store (.duplicateColumn "name"))
      ∧ ((scan ⟨"q"⟩).runFrom (emptyShop ["product", "sqlite_log"], t')).1
          = .error (.store (.reservedName "sqlite_log")) := by
  have hreadable : Json.Readable 6 unreadableSchema := by
    simp [unreadableSchema, Json.Readable, Json.ReadableFields]
  have hread : Entity.readSchema? unreadableSchema.bytes = some unreadableEntities := by
    rw [Entity.readSchema?, Json.outlineRead?_bytes hreadable]
    rfl
  have hplain : ∀ p ∈ unreadableEntities, p.2.Plain p.1 := by
    intro p hp
    rcases List.mem_pair.mp hp with rfl | rfl
    · exact ⟨by decide, by decide, by decide, by decide⟩
    · exact ⟨by decide, by decide, by decide, by decide⟩
  refine ⟨⟨unreadableEntities, .file "schema.json"⟩, ⟨_, 1, none⟩, ⟨_, 1, none⟩, ?_, hplain, rfl,
    rfl, scan_of_fault rfl read?_no_records rfl (by decide +kernel),
    scan_of_fault rfl read?_no_records rfl (by decide +kernel)⟩
  rw [Registry.ofFile, hread]

end TableHandle

end ShopTables
