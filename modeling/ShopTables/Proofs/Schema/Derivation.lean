import Mathlib.Data.List.Sort
import Mathlib.Data.String.Basic
import ShopTables.Proofs.RowStore.Keys
import ShopTables.Proofs.Schema.Columnwise
import ShopTables.Registry

/-!
# Tables do not depend on the order of their properties

```
    properties, in any order   --filter, ofProperty-->   columns   --sort-->   e.columns
```

The map of a schema gives its entities, and each entity its properties, in no order one could rely
on. Whatever the order, sorting the columns as they are met gives the columns of the table
(`Entity.sorted_columns`): those of the primary key first, each group by the bytes of the names. So
the places of the key are the first ones, and a name leads to the place of its column
(`Registry.definitions_derived`).
-/

namespace ShopTables

/-! ### Maps met in any order -/

namespace KeyList

variable {β γ : Type u}

theorem mem_keys_ofList {pairs : List (String × β)} {key : String} :
    key ∈ keys (ofList pairs) ↔ key ∈ pairs.map (·.1) := by
  have hreverse : key ∈ keys pairs.reverse ↔ key ∈ pairs.map (·.1) := by
    rw [keys, List.map_reverse, List.mem_reverse]
  rw [← hreverse, ← not_iff_not, ← get?_eq_none_iff, ← get?_eq_none_iff, get?_ofList]

theorem mem_namesOf {names : List String} {name : String} : name ∈ namesOf names ↔ name ∈ names := by
  rw [namesOf, mem_keys_ofList, List.map_map]
  exact List.mem_map.trans ⟨fun ⟨_, h, e⟩ => e ▸ h, fun h => ⟨name, h, rfl⟩⟩

theorem get?_map (f : String → β → γ) (m : KeyList β) (key : String) :
    get? (m.map fun p => (p.1, f p.1 p.2)) key = (get? m key).map (f key) := by
  induction m with
  | nil => rfl
  | cons p m ih =>
    rw [List.map_cons, get?_cons, get?_cons, ih]
    split_ifs with h
    · rw [Option.map_some, h]
    · rfl

/-- Two maps with the same pairs are the same. -/
theorem Sorted.eq_of_perm {m m' : KeyList β} (h : Sorted m) (h' : Sorted m') (hperm : m.Perm m') :
    m = m' :=
  hperm.eq_of_pairwise (fun _ _ _ _ hlt hgt => absurd hgt (lt_asymm hlt)) h h'

/-- The pairs of a map put into a map again, in any order. -/
theorem ofList_of_perm {m : KeyList β} (h : Sorted m) {pairs : List (String × β)}
    (hperm : pairs.Perm m) : ofList pairs = m := by
  have hkeys : (pairs.map (·.1)).Nodup := (hperm.map _).nodup_iff.mpr h.nodup_keys
  exact (sorted_ofList pairs).eq_of_perm h ((perm_ofList hkeys).trans hperm)

end KeyList

/-- Entities as they are met in their map: in any order, each with its properties in any order. -/
def Met (met : List (String × Entity)) (entities : KeyList Entity) : Prop :=
  ∃ shuffled, met.Perm shuffled ∧ List.Forall₂ (fun p q => p.1 = q.1 ∧ p.2.name = q.2.name
    ∧ p.2.properties.Perm q.2.properties) shuffled entities

/-- What is made of each entity is made of them in any order. -/
theorem Met.map_perm {γ : Type} {met : List (String × Entity)} {entities : KeyList Entity}
    (h : Met met entities) {f g : String × Entity → γ}
    (hfg : ∀ p, ∀ q ∈ entities, p.1 = q.1 → p.2.name = q.2.name →
      p.2.properties.Perm q.2.properties → f p = g q) :
    (met.map f).Perm (entities.map g) := by
  obtain ⟨shuffled, hperm, hsame⟩ := h
  have hmap : shuffled.map f = entities.map g := by
    clear hperm
    induction hsame with
    | nil => rfl
    | cons hpq _ ih =>
      obtain ⟨hkey, hname, hproperties⟩ := hpq
      rw [List.map_cons, List.map_cons, hfg _ _ List.mem_cons_self hkey hname hproperties,
        ih fun p q hq => hfg p q (List.mem_cons_of_mem _ hq)]
  exact hmap ▸ hperm.map f

/-! ### The order of columns -/

namespace Column

/-- One column stands before another: it alone is part of the primary key, or the bytes of its name
are less. -/
def Precedes (a b : Column) : Prop :=
  a.primaryKey = true ∧ b.primaryKey = false
    ∨ a.primaryKey = b.primaryKey ∧ Text.Utf8.ofString a.name < Text.Utf8.ofString b.name

/-- May one column stand before another? -/
def mayPrecede (a b : Column) : Bool :=
  if a.primaryKey = b.primaryKey then a.name ≤ b.name else a.primaryKey

/-- The columns of properties as they are met, put in order. -/
def sorted (source : String) (properties : List (String × Property)) : List Column :=
  ((properties.filter fun p => !p.2.isAssociation).map fun p => ofProperty p.1 source p.2).mergeSort
    mayPrecede

theorem mayPrecede_iff {a b : Column} : a.mayPrecede b = true
    ↔ a.primaryKey = true ∧ b.primaryKey = false
      ∨ a.primaryKey = b.primaryKey ∧ a.name ≤ b.name := by
  rw [mayPrecede]
  split_ifs with h
  · rw [decide_eq_true_iff]
    refine ⟨fun hle => .inr ⟨h, hle⟩, ?_⟩
    rintro (⟨ha, hb⟩ | ⟨-, hle⟩)
    · exact absurd (ha.symm.trans (h.trans hb)) Bool.true_eq_false.mp
    · exact hle
  · refine ⟨fun ha => .inl ⟨ha, ?_⟩, ?_⟩
    · exact Bool.eq_false_iff.mpr fun hb => h (ha.trans hb.symm)
    · rintro (⟨ha, -⟩ | ⟨hsame, -⟩)
      · exact ha
      · exact absurd hsame h

theorem mayPrecede_of_precedes {a b : Column} (h : a.Precedes b) : a.mayPrecede b = true :=
  mayPrecede_iff.mpr (h.imp_right fun h => ⟨h.1, (Text.Utf8.ofString_lt_iff.mp h.2).le⟩)

theorem mayPrecede_total (a b : Column) : (a.mayPrecede b || b.mayPrecede a) = true := by
  rw [Bool.or_eq_true, mayPrecede_iff, mayPrecede_iff]
  cases ha : a.primaryKey with
  | true =>
    cases hb : b.primaryKey with
    | true => exact (le_total a.name b.name).imp (fun h => .inr ⟨rfl, h⟩) fun h => .inr ⟨rfl, h⟩
    | false => exact .inl (.inl ⟨rfl, rfl⟩)
  | false =>
    cases hb : b.primaryKey with
    | true => exact .inr (.inl ⟨rfl, rfl⟩)
    | false => exact (le_total a.name b.name).imp (fun h => .inr ⟨rfl, h⟩) fun h => .inr ⟨rfl, h⟩

theorem mayPrecede_trans (a b c : Column) (hab : a.mayPrecede b = true)
    (hbc : b.mayPrecede c = true) : a.mayPrecede c = true := by
  rw [mayPrecede_iff] at hab hbc ⊢
  obtain ⟨ha, hb⟩ | ⟨hab, hle⟩ := hab
  · obtain ⟨hb', -⟩ | ⟨hbc, -⟩ := hbc
    · exact absurd (hb.symm.trans hb') Bool.false_ne_true
    · exact .inl ⟨ha, hbc ▸ hb⟩
  · obtain ⟨hb, hc⟩ | ⟨hbc, hle'⟩ := hbc
    · exact .inl ⟨hab.trans hb, hc⟩
    · exact .inr ⟨hab.trans hbc, le_trans hle hle'⟩

/-- Of two columns with different names, one alone may precede the other. -/
theorem name_eq_of_mayPrecede {a b : Column} (hab : a.mayPrecede b = true)
    (hba : b.mayPrecede a = true) : a.name = b.name := by
  rw [mayPrecede_iff] at hab hba
  obtain ⟨ha, hb⟩ | ⟨hsame, hle⟩ := hab
  · obtain ⟨hb', -⟩ | ⟨hsame, -⟩ := hba
    · exact absurd (hb.symm.trans hb') Bool.false_ne_true
    · exact absurd (hb.symm.trans (hsame.trans ha)) Bool.false_ne_true
  · obtain ⟨hb, ha⟩ | ⟨-, hle'⟩ := hba
    · exact absurd (ha.symm.trans (hsame.trans hb)) Bool.false_ne_true
    · exact le_antisymm hle hle'

end Column

namespace Entity

variable {e : Entity}

/-- An entity has a column for each property that is no association. -/
theorem perm_columns (e : Entity) :
    e.columns.Perm ((e.properties.filter fun p => !p.2.isAssociation).map
      fun p => Column.ofProperty p.1 e.name p.2) :=
  List.filter_append_perm (fun c : Column => c.primaryKey) _

theorem nodup_names_columns (h : KeyList.Sorted e.properties) :
    (e.columns.map (·.name)).Nodup :=
  e.perm_columnNames.nodup_iff.mpr (nodup_columnNames h.nodup_keys)

theorem pairwise_columns (h : KeyList.Sorted e.properties) : e.columns.Pairwise Column.Precedes := by
  have hnames : ((e.properties.filter fun p => !p.2.isAssociation).map
      fun p => Column.ofProperty p.1 e.name p.2).Pairwise fun a b => a.name < b.name :=
    List.pairwise_map.mpr (h.filter _)
  have hgroup (q : Column → Bool) (hq : ∀ a b, q a = true → q b = true →
      a.primaryKey = b.primaryKey) : (((e.properties.filter fun p => !p.2.isAssociation).map
        fun p => Column.ofProperty p.1 e.name p.2).filter q).Pairwise Column.Precedes := by
    refine (hnames.filter q).imp_of_mem fun ha hb hlt => .inr ⟨?_, ?_⟩
    · exact hq _ _ (List.mem_filter.mp ha).2 (List.mem_filter.mp hb).2
    · exact Text.Utf8.ofString_lt_iff.mpr hlt
  unfold columns
  dsimp only
  refine List.pairwise_append.mpr ⟨hgroup _ fun a b ha hb => ha.trans hb.symm,
    hgroup _ fun a b ha hb => Bool.not_inj (ha.trans hb.symm), fun a ha b hb => .inl ⟨?_, ?_⟩⟩
  · exact (List.mem_filter.mp ha).2
  · exact Bool.not_eq_true' _ ▸ (List.mem_filter.mp hb).2

/-- In whatever order the properties are met, sorting gives the columns of the entity. -/
theorem sorted_columns (h : KeyList.Sorted e.properties) {met : List (String × Property)}
    (hmet : met.Perm e.properties) : Column.sorted e.name met = e.columns := by
  have hperm : (Column.sorted e.name met).Perm e.columns :=
    (List.mergeSort_perm _ _).trans
      (((hmet.filter _).map _).trans e.perm_columns.symm)
  have hsorted : (Column.sorted e.name met).Pairwise fun a b => a.mayPrecede b = true :=
    List.pairwise_mergeSort Column.mayPrecede_trans Column.mayPrecede_total _
  have hcolumns : e.columns.Pairwise fun a b => a.mayPrecede b = true :=
    (pairwise_columns h).imp Column.mayPrecede_of_precedes
  refine hperm.eq_of_pairwise (fun a b ha hb hab hba => ?_) hsorted hcolumns
  exact List.inj_on_of_nodup_map (nodup_names_columns h) (hperm.subset ha) hb
    (Column.name_eq_of_mayPrecede hab hba)

end Entity

/-! ### Tables -/

namespace TableDefinition

/-- The columns of a table are those of its entity, which has a name by then. -/
theorem columns_ofEntity (registered : String) (e : Entity) (mapping : Bool) :
    (ofEntity registered e mapping).columns
      = { e with name := (ofEntity registered e mapping).name }.columns := by
  have hsource (p : String × Property) :
      (if (Column.ofProperty p.1 e.name p.2).source = "" then
        { Column.ofProperty p.1 e.name p.2 with source := (ofEntity registered e mapping).name }
        else Column.ofProperty p.1 e.name p.2)
      = Column.ofProperty p.1 (ofEntity registered e mapping).name p.2 := by
    have hname : (ofEntity registered e mapping).name = if e.name = "" then registered else e.name :=
      rfl
    rw [hname, Column.ofProperty]
    split_ifs with h
    · rfl
    · rfl
  rw [ofEntity, Entity.columns, Entity.columns]
  dsimp only
  rw [List.map_append, List.filter_map, List.filter_map, List.filter_map, List.filter_map,
    List.map_map, List.map_map]
  refine congrArg₂ (· ++ ·) ?_ ?_
  · exact List.map_congr_left fun p _ => hsource p
  · exact List.map_congr_left fun p _ => hsource p

/-- Where the columns of the primary key come first, their places are the first ones. -/
theorem primaryKeyOrdinals_eq {d : TableDefinition} (h : d.columns.Pairwise Column.Precedes) :
    d.primaryKeyOrdinals = List.range (d.columns.countP (·.primaryKey)) := by
  have hplaces : ∀ (cs : List Column) (n : Nat), cs.Pairwise Column.Precedes →
      ((cs.zipIdx n).filter (·.1.primaryKey)).map (·.2)
        = List.range' n (cs.countP (·.primaryKey)) := by
    intro cs
    induction cs with
    | nil => exact fun _ _ => rfl
    | cons c cs ih =>
      intro n hcs
      obtain ⟨hfirst, hrest⟩ := List.pairwise_cons.mp hcs
      rw [List.zipIdx_cons, List.filter_cons, List.countP_cons]
      dsimp only
      by_cases hc : c.primaryKey = true
      · rw [if_pos hc, if_pos hc, List.map_cons, ih _ hrest, List.range'_succ]
      · -- no column after `c` can be part of the key
        have hnone : ∀ b ∈ cs, ¬ b.primaryKey = true := by
          intro b hb hkey
          obtain ⟨hc', -⟩ | ⟨hsame, -⟩ := hfirst b hb
          · exact hc hc'
          · exact hc (hsame.trans hkey)
        rw [if_neg hc, if_neg hc, ih _ hrest, List.countP_eq_zero.mpr hnone]
        rfl
  rw [primaryKeyOrdinals, RowStore.primaryPlaces_eq, hplaces d.columns 0 h, List.range_eq_range']

theorem indexOf_of_getElem? {d : TableDefinition} (hnames : (d.columns.map (·.name)).Nodup) {i : Nat}
    {c : Column} (hc : d.columns[i]? = some c) : d.indexOf c.name = some i := by
  obtain ⟨hi, rfl⟩ := List.getElem?_eq_some_iff.mp hc
  refine List.findIdx?_eq_some_iff_getElem.mpr ⟨hi, beq_self_eq_true _, fun j hj hsame => ?_⟩
  have hlast : j < (d.columns.map (·.name)).length := by
    rw [List.length_map]
    omega
  have hname : (d.columns.map (·.name))[j]? = (d.columns.map (·.name))[i]? := by
    rw [List.getElem?_map, List.getElem?_map, List.getElem?_eq_getElem hi,
      List.getElem?_eq_getElem (hj.trans hi)]
    exact congrArg some (beq_iff_eq.mp hsame)
  exact absurd ((List.getElem?_inj hlast hnames).mp hname) (Nat.ne_of_lt hj)

theorem indexOf_of_not_mem {d : TableDefinition} {name : String}
    (h : ∀ c ∈ d.columns, c.name ≠ name) : d.indexOf name = none :=
  List.findIdx?_eq_none_iff.mpr fun c hc => beq_eq_false_iff_ne.mpr (h c hc)

end TableDefinition

/-! ### Registries -/

namespace Entity

/-- The entity whose properties were put into its map one after the other. -/
def assembled (e : Entity) : Entity := ⟨e.name, KeyList.ofList e.properties⟩

/-- The junction entities that the associations of an entity name, as they are met. -/
def junctions (e : Entity) : List String :=
  e.properties.filterMap fun (_, p) =>
    if p.relation = some manyToMany then p.mapping.filter (· ≠ "") else none

theorem mem_junctions {e : Entity} {name : String} : name ∈ e.junctions
    ↔ ∃ p ∈ e.properties, p.2.relation = some manyToMany ∧ p.2.mapping = some name ∧ name ≠ "" := by
  rw [junctions, List.mem_filterMap]
  refine exists_congr fun p => and_congr_right fun _ => ?_
  dsimp only
  split_ifs with hrelation
  · rw [Option.filter_eq_some_iff, decide_eq_true_iff]
    exact (and_iff_right hrelation).symm
  · exact ⟨nofun, fun h => absurd h.1 hrelation⟩

end Entity

namespace Registry

variable {r : Registry}

/-- The registry whose entities, and their properties, were put into their maps one after the
other. -/
def assembled (inserted : List (String × Entity)) (source : RegistrySource) : Registry :=
  ⟨KeyList.ofList (inserted.map fun p => (p.1, p.2.assembled)), source⟩

/-- The tables of entities as these, and the properties of each, are met. -/
def tablesMet (met : List (String × Entity)) : KeyList TableDefinition :=
  let junctions := met.flatMap fun p => p.2.junctions
  KeyList.ofList (met.map fun p =>
    let name := if p.2.name = "" then p.1 else p.2.name
    (p.1, { name
            columns := Column.sorted name p.2.properties
            isMapping := junctions.contains p.1 }))

/-- The maps of a registry hold each name once. -/
structure Ordered (r : Registry) : Prop where
  entities : KeyList.Sorted r.entities
  properties : ∀ p ∈ r.entities, KeyList.Sorted p.2.properties

theorem ordered_assembled (inserted : List (String × Entity)) (source : RegistrySource) :
    (assembled inserted source).Ordered where
  entities := KeyList.sorted_ofList _
  properties := by
    intro p hp
    obtain ⟨q, -, rfl⟩ := List.mem_map.mp (KeyList.ofList_subset _ hp)
    exact KeyList.sorted_ofList _

/-- Entities that are put into their maps in any order are those of the registry. -/
theorem assembled_of_met (h : r.Ordered) {met : List (String × Entity)} (hmet : Met met r.entities) :
    assembled met r.source = r := by
  have hperm := hmet.map_perm (f := fun p => (p.1, p.2.assembled)) (g := id) fun p q hq hkey hname
      hproperties => by
    rw [Entity.assembled, KeyList.ofList_of_perm (h.properties q hq) hproperties, hkey, hname]
    rfl
  rw [List.map_id] at hperm
  rw [assembled, KeyList.ofList_of_perm h.entities hperm]

theorem isMapping_iff {name : String} : r.isMapping name = true
    ↔ ∃ q ∈ r.entities, ∃ p ∈ q.2.properties, p.2.relation = some manyToMany
        ∧ p.2.mapping = some name ∧ name ≠ "" := by
  rw [isMapping, mappingEntities, List.contains_iff_mem, KeyList.mem_namesOf, List.mem_flatMap]
  refine exists_congr fun q => and_congr_right fun _ => ?_
  exact KeyList.mem_namesOf.trans Entity.mem_junctions

theorem get?_definitions {registered : String} {e : Entity} (h : r.get? registered = some e) :
    r.definitions.get? registered
      = some (.ofEntity registered e (r.isMapping registered)) := by
  have hget := KeyList.get?_map (fun name e => TableDefinition.ofEntity name e (r.isMapping name))
    r.entities registered
  rw [Registry.get?] at h
  rw [h] at hget
  exact hget

/-- In whatever order entities and properties are met, their tables are the same. -/
theorem tablesMet_eq (h : r.Ordered) {met : List (String × Entity)} (hmet : Met met r.entities) :
    tablesMet met = r.definitions := by
  have hjunctions (name : String) :
      (met.flatMap fun p => p.2.junctions).contains name = r.isMapping name := by
    have hperm := hmet.map_perm (f := fun p => p.2.junctions.contains name)
      (g := fun q => q.2.mappingTables.contains name) fun p q _ _ _ hproperties => by
        rw [Bool.eq_iff_iff, List.contains_iff_mem, List.contains_iff_mem]
        exact (hproperties.filterMap _).mem_iff.trans KeyList.mem_namesOf.symm
    have hsome := hperm.mem_iff (a := true)
    simp only [List.mem_map, List.contains_iff_mem] at hsome
    rw [Bool.eq_iff_iff, List.contains_iff_mem, List.mem_flatMap, hsome, isMapping, mappingEntities,
      List.contains_iff_mem, KeyList.mem_namesOf, List.mem_flatMap]
  have hsorted : KeyList.Sorted r.definitions := List.pairwise_map.mpr h.entities
  refine KeyList.ofList_of_perm hsorted (hmet.map_perm fun p q hq hkey hname hproperties => ?_)
  have hcolumns := Entity.sorted_columns
    (e := { q.2 with name := (TableDefinition.ofEntity q.1 q.2 (r.isMapping q.1)).name })
    (h.properties q hq) hproperties
  rw [← TableDefinition.columns_ofEntity] at hcolumns
  rw [hjunctions, hkey, hname]
  exact congrArg (fun columns => (q.1, TableDefinition.mk _ columns _)) hcolumns

/-- The table of an entity as it comes from the entity's properties. -/
structure Derived (r : Registry) (registered : String) (e : Entity) (d : TableDefinition) :
    Prop where
  /-- There is one column for each property that is no association. -/
  columns : d.columns.Perm ((e.properties.filter fun p => !p.2.isAssociation).map
    fun p => Column.ofProperty p.1 d.name p.2)
  names : (d.columns.map (·.name)).Nodup
  /-- Those of the primary key come first, and names decide within each group. -/
  order : d.columns.Pairwise Column.Precedes
  ordinals : d.primaryKeyOrdinals = List.range (d.columns.countP (·.primaryKey))
  place : ∀ (i : Nat) (c : Column), d.columns[i]? = some c → d.indexOf c.name = some i
  noPlace : ∀ name, (∀ c ∈ d.columns, c.name ≠ name) → d.indexOf name = none
  association : ∀ p ∈ e.properties, p.2.isAssociation = true → d.indexOf p.1 = none
  nullable : ∀ c ∈ d.columns, (c.nullable = true ↔ c.primaryKey = false)
  /-- Some association of some entity names the table as its junction. -/
  mapping : d.isMapping = true ↔ ∃ q ∈ r.entities, ∃ p ∈ q.2.properties,
    p.2.relation = some manyToMany ∧ p.2.mapping = some registered ∧ registered ≠ ""

theorem derived_ofEntity {registered : String} {e : Entity} (h : KeyList.Sorted e.properties) :
    r.Derived registered e (.ofEntity registered e (r.isMapping registered)) := by
  set d := TableDefinition.ofEntity registered e (r.isMapping registered) with hd
  have hcolumns : d.columns = { e with name := d.name }.columns :=
    TableDefinition.columns_ofEntity registered e _
  have hperm := Entity.perm_columns { e with name := d.name }
  have hnames := TableDefinition.nodup_names registered (r.isMapping registered) h.nodup_keys
  have horder := Entity.pairwise_columns (e := { e with name := d.name }) h
  rw [← hcolumns] at hperm horder
  refine ⟨hperm, hnames, horder, TableDefinition.primaryKeyOrdinals_eq horder,
    fun i c hc => TableDefinition.indexOf_of_getElem? hnames hc,
    fun name hname => TableDefinition.indexOf_of_not_mem hname, fun p hp hassociation => ?_,
    fun c hc => ?_, isMapping_iff⟩
  · refine TableDefinition.indexOf_of_not_mem fun c hc hname => ?_
    -- the column would be that of another property of the same name
    obtain ⟨q, hq, rfl⟩ := List.mem_map.mp (hperm.subset hc)
    obtain ⟨hq, hplain⟩ := List.mem_filter.mp hq
    obtain rfl : q = p := List.inj_on_of_nodup_map h.nodup_keys hq hp hname
    rw [hassociation] at hplain
    cases hplain
  · obtain ⟨q, -, rfl⟩ := List.mem_map.mp (hperm.subset hc)
    exact (Bool.not_eq_true' _).to_iff

/-- The tables of a registry. Each entity has one: it has one column for each property that is no
association, as the property's type and flags make it, those of the primary key first and each group
by the bytes of the names. So the places of the key are the first ones, a name leads to the place of
its column and no other name to any, just the columns of the key must not be null, and a table is a
junction when some association of some entity says so. In whatever order the entities and their
properties are put into their maps, or met in them, the tables are the same. -/
theorem definitions_derived (inserted : List (String × Entity)) (source : RegistrySource) :
    let r := assembled inserted source
    r.definitions.keys = r.names
    ∧ (∀ registered e, r.get? registered = some e →
        ∃ d, r.definitions.get? registered = some d ∧ r.Derived registered e d)
    ∧ (∀ met, Met met r.entities → assembled met source = r ∧ tablesMet met = r.definitions) := by
  intro r
  have hordered : r.Ordered := ordered_assembled inserted source
  refine ⟨?_, fun registered e he => ⟨_, get?_definitions he, ?_⟩, fun met hmet => ⟨?_, ?_⟩⟩
  · rw [definitions, KeyList.keys, List.map_map]
    rfl
  · exact derived_ofEntity (hordered.properties _ (KeyList.mem_of_get? he))
  · exact assembled_of_met hordered hmet
  · exact tablesMet_eq hordered hmet

end Registry

end ShopTables
