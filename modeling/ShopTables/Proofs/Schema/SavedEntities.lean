import ShopTables.Proofs.Json.Forms
import ShopTables.Proofs.Json.Sound
import ShopTables.Proofs.Schema.Derivation

/-!
# Entities are saved and read back

```
    schema document  --readSchema?-->  entities  --toJson, in any order-->  saved document
                                          ^                                     |
                                          +------------- readSchema? -----------+
```

Entities that were read can be written to a document again, in whatever order their maps are walked.
If there are no floats in their flags, the same entities are read again (`Registry.ofFile_saved`).
The two forms a document can have, unknown fields and nulls are gone after the first reading: the
saved document has fields only for what is there. Flags stand as deep in it as the reader lets them
stand in any document, so they can be read again however deep they nest (`flagsDepth`).
-/

namespace ShopTables

namespace KeyList

variable {β : Type u}

theorem get?_append (m m' : KeyList β) (key : String) :
    get? (m ++ m') key = (get? m key).or (get? m' key) := by
  induction m with
  | nil => rfl
  | cons p m ih =>
    rw [List.cons_append, get?_cons, get?_cons, ih]
    split_ifs <;> rfl

variable {α : Type v}

/-- A pair that may be missing. -/
theorem get?_toList (name : String) (write : α → β) (o : Option α) (key : String) :
    get? (o.map fun v => (name, write v)).toList key = if name = key then o.map write else none := by
  cases o with
  | none => exact (ite_self none).symm
  | some v => exact get?_cons (name, write v) [] key

theorem keys_toList_sublist (name : String) (write : α → β) (o : Option α) :
    ((o.map fun v => (name, write v)).toList.map (·.1)).Sublist [name] := by
  cases o with
  | none => exact List.nil_sublist _
  | some v => exact List.Sublist.refl _

end KeyList

open Json (outlineOf canonical)

/-- How deep the flags of a property may nest: they stand in four objects of a document, or in
arrays in their place. -/
def flagsDepth : Nat := Json.maxDepth - 4

/-! ### Properties -/

namespace Property

/-- Are the flags as they can be read? Null is none, and anything else a sound value. -/
def Sound (p : Property) : Prop :=
  ∀ flags ∈ p.flags, flags ≠ .null ∧ Json.Sound flagsDepth flags

/-- Is there no float in the flags? -/
def WithoutFloats (p : Property) : Prop := ∀ flags ∈ p.flags, flags.WithoutFloats

variable {p : Property}

theorem readFlags?_of_ne_null {d : Nat} {o : Json.Outline} (h : o ≠ .null) :
    readFlags? d (some o) = (Json.ofOutline? d o).map some := by
  cases o with
  | null => exact absurd rfl h
  | _ => rfl

/-- Flags that are there were not null. -/
theorem sound_of_readFlags? {d : Nat} {o : Option Json.Outline} {flags : Json}
    (h : readFlags? d o = some (some flags)) : flags ≠ .null ∧ Json.Sound d flags := by
  cases o with
  | none => cases h
  | some o =>
    have hnull : o ≠ .null := by
      rintro rfl
      cases h
    rw [readFlags?_of_ne_null hnull] at h
    obtain ⟨v, hv, hflags⟩ := Option.map_eq_some_iff.mp h
    obtain rfl := Option.some.inj hflags
    exact ⟨Json.ne_null_of_ofOutline? hv hnull, Json.sound_of_ofOutline? d o v hv⟩

theorem sound_of_ofOutline? {o : Json.Outline} (h : ofOutline? flagsDepth o = some p) :
    p.Sound := by
  intro flags hflags
  rw [ofOutline?] at h
  split at h
  · simp only [Option.bind_eq_bind, Option.bind_eq_some_iff, Option.pure_def,
      Option.some.injEq] at h
    obtain ⟨_, -, _, -, _, -, _, -, read, hread, rfl⟩ := h
    exact sound_of_readFlags? (hread.trans (congrArg some hflags))
  · cases h

/-- Sound flags are written as they are, and can be read again. -/
theorem readable_of_sound (hp : p.Sound) (hfloats : p.WithoutFloats) {flags : Json}
    (hflags : flags ∈ p.flags) : Json.Readable flagsDepth flags :=
  Json.readable_of_sound flagsDepth flagsDepth flags (Nat.le_refl _) (hp flags hflags).2
    (hfloats flags hflags)

theorem readFlags?_map (hp : p.Sound) (hfloats : p.WithoutFloats) :
    readFlags? flagsDepth (p.flags.map outlineOf) = some p.flags := by
  cases hflags : p.flags with
  | none => rfl
  | some flags =>
    obtain ⟨hnull, hsound⟩ := hp flags hflags
    have hreadable := readable_of_sound hp hfloats hflags
    rw [Option.map_some, readFlags?_of_ne_null (Json.outlineOf_ne_null hreadable hnull),
      Json.ofOutline?_outlineOf flagsDepth flags hreadable,
      Json.canonical_of_sound flagsDepth flags hsound, Option.map_some]

/-- The fields of a property's document. -/
def fields (p : Property) : List (String × Json) :=
  ("type", .string p.kind) ::
    ((p.relation.map fun s => ("relation", .string s)).toList
      ++ (p.entity.map fun s => ("entity", .string s)).toList
      ++ (p.mapping.map fun s => ("mapping", .string s)).toList
      ++ (p.flags.map fun f => ("flags", f)).toList)

theorem toJson_eq (p : Property) : p.toJson = .object p.fields := rfl

theorem nodup_fields (p : Property) : (p.fields.map (·.1)).Nodup := by
  have hsublist : (p.fields.map (·.1)).Sublist fieldNames := by
    rw [fields, List.map_cons, List.map_append, List.map_append, List.map_append]
    exact ((((KeyList.keys_toList_sublist _ _ p.relation).append
      (KeyList.keys_toList_sublist _ _ p.entity)).append
      (KeyList.keys_toList_sublist _ _ p.mapping)).append
      (KeyList.keys_toList_sublist _ (fun f => f) p.flags)).cons_cons "type"
  exact hsublist.nodup (by decide)

/-- A document of a property has a field for what is there. -/
theorem get?_fields (p : Property) : (fieldNames.map fun n => KeyList.get? p.fields n)
    = [some (.string p.kind), p.relation.map .string, p.entity.map .string, p.mapping.map .string,
        p.flags] := by
  have hflags (key : String) := KeyList.get?_toList "flags" (fun f : Json => f) p.flags key
  simp [fields, fieldNames, KeyList.get?_cons, KeyList.get?_append, KeyList.get?_toList, hflags]

theorem readable_toJson (hp : p.Sound) (hfloats : p.WithoutFloats) :
    Json.Readable (flagsDepth + 1) p.toJson := by
  rw [toJson_eq, Json.Readable, Json.readableFields_iff]
  intro f hf
  simp only [fields, List.mem_cons, List.mem_append, Option.mem_toList, Option.map_eq_some_iff] at hf
  rcases hf with rfl | ((⟨s, -, rfl⟩ | ⟨s, -, rfl⟩) | ⟨s, -, rfl⟩) | ⟨flags, hflags, rfl⟩
  · trivial
  · trivial
  · trivial
  · trivial
  · exact readable_of_sound hp hfloats hflags

/-- A property that was written is read again as it is. -/
theorem ofOutline?_toJson (hp : p.Sound) (hfloats : p.WithoutFloats) :
    ofOutline? flagsDepth (outlineOf p.toJson) = some p := by
  have hread : Json.Form.read? fieldNames (outlineOf p.toJson)
      = some [some (outlineOf (.string p.kind)), p.relation.map fun s => outlineOf (.string s),
          p.entity.map fun s => outlineOf (.string s), p.mapping.map fun s => outlineOf (.string s),
          p.flags.map outlineOf] := by
    have hfields := congrArg (List.map (Option.map outlineOf)) (get?_fields p)
    rw [List.map_map] at hfields
    rw [toJson_eq, Json.Form.read?_outlineOf (by decide) p.nodup_fields]
    refine congrArg some (hfields.trans ?_)
    simp only [List.map_cons, List.map_nil, Option.map_some, Option.map_map, Function.comp_def]
  rw [ofOutline?, hread]
  dsimp only
  rw [Json.Form.optionalString?_map, Json.Form.optionalString?_map, Json.Form.optionalString?_map,
    readFlags?_map hp hfloats, Json.Form.string?_outlineOf]
  rfl

end Property

/-! ### Entities -/

namespace Entity

/-- Is the entity as it can be read? -/
structure Sound (e : Entity) : Prop where
  sorted : KeyList.Sorted e.properties
  properties : ∀ p ∈ e.properties, p.2.Sound

/-- Is there no float in the flags of any property? -/
def WithoutFloats (e : Entity) : Prop := ∀ p ∈ e.properties, p.2.WithoutFloats

variable {e : Entity}

theorem sound_of_ofOutline? {o : Json.Outline} (h : ofOutline? (flagsDepth + 2) o = some e) :
    e.Sound := by
  rw [ofOutline?] at h
  split at h
  · rename_i properties _
    obtain ⟨name, -, h⟩ := Option.bind_eq_some_iff.mp h
    cases properties with
    | none =>
      obtain rfl := Option.some.inj h
      exact ⟨KeyList.sorted_nil, List.forall_mem_nil _⟩
    | some o =>
      obtain ⟨m, hm, hentity⟩ := Option.bind_eq_some_iff.mp h
      obtain rfl := Option.some.inj hentity
      obtain ⟨hsorted, hread⟩ := Json.Form.sorted_of_map? hm
      refine ⟨hsorted, fun p hp => ?_⟩
      obtain ⟨o, ho⟩ := hread p hp
      exact Property.sound_of_ofOutline? ho
  · cases h

/-- The value of an entity does not depend on the order in which its properties are met. -/
theorem canonical_toJson {e' : Entity} (hname : e'.name = e.name)
    (hsorted : KeyList.Sorted e.properties) (hperm : e'.properties.Perm e.properties) :
    canonical e'.toJson = .object [("entity", .string e.name),
      ("properties", .object (e.properties.map fun p => (p.1, canonical p.2.toJson)))] := by
  let write (p : String × Property) : String × Json := (p.1, canonical p.2.toJson)
  have hwritten : KeyList.Sorted (e.properties.map write) := List.pairwise_map.mpr hsorted
  have hproperties : canonical (.object (e'.properties.map fun p => (p.1, p.2.toJson)))
      = .object (e.properties.map write) := by
    rw [canonical, Json.canonicalFields_eq, List.map_map]
    exact congrArg Json.object (KeyList.ofList_of_perm hwritten (hperm.map write))
  have hfields : KeyList.Sorted [("entity", Json.string e.name),
      ("properties", .object (e.properties.map write))] :=
    List.pairwise_pair.mpr (show "entity" < "properties" by decide)
  rw [toJson, canonical, Json.canonicalFields_eq, List.map_cons, List.map_singleton, canonical,
    hproperties, hname]
  exact congrArg Json.object (KeyList.ofList_eq_self hfields)

variable (hsound : ∀ p ∈ e.properties, p.2.Sound) (hfloats : e.WithoutFloats)
include hsound hfloats

theorem readable_toJson : Json.Readable (flagsDepth + 3) e.toJson := by
  refine ⟨trivial, ?_, trivial⟩
  rw [Json.Readable, Json.readableFields_iff, List.forall_mem_map]
  exact fun p hp => Property.readable_toJson (hsound p hp) (hfloats p hp)

/-- An entity that was written, with its properties in any order, is read again with these in
their map. -/
theorem ofOutline?_toJson :
    ofOutline? (flagsDepth + 2) (outlineOf e.toJson) = some e.assembled := by
  have hproperties : Json.Form.map? (Property.ofOutline? flagsDepth)
      (outlineOf (.object (e.properties.map fun p => (p.1, p.2.toJson))))
        = some (KeyList.ofList (e.properties.map fun p => (p.1, id p.2))) :=
    Json.Form.map?_outlineOf fun p hp => Property.ofOutline?_toJson (hsound p hp) (hfloats p hp)
  have hread : Json.Form.read? ["entity", "properties"] (outlineOf e.toJson)
      = some [some (outlineOf (.string e.name)),
          some (outlineOf (.object (e.properties.map fun p => (p.1, p.2.toJson))))] := by
    rw [toJson, Json.Form.read?_outlineOf (by decide) (by simp)]
    rfl
  rw [ofOutline?, hread]
  dsimp only
  rw [Json.Form.string?_outlineOf, Option.bind_eq_bind, Option.bind_some, Nat.add_sub_cancel,
    hproperties, Option.bind_eq_bind, Option.bind_some]
  exact congrArg (fun m => some (Entity.mk e.name (KeyList.ofList m))) (List.map_id _)

end Entity

/-! ### Documents -/

/-- Each entity that is met is one of the map. -/
theorem Met.exists_of_mem {met : List (String × Entity)} {entities : KeyList Entity}
    (h : Met met entities) {p : String × Entity} (hp : p ∈ met) :
    ∃ q ∈ entities, p.2.properties.Perm q.2.properties := by
  obtain ⟨shuffled, hperm, hsame⟩ := h
  obtain ⟨q, hq, -, -, hproperties⟩ := exists_of_mem_of_forall₂ hsame.flip (hperm.subset hp)
  exact ⟨q, hq, hproperties⟩

namespace Registry

/-- A schema document of entities as they, and the properties of each, are met. -/
def savedDocument (met : List (String × Entity)) : Json :=
  .object (met.map fun p => (p.1, p.2.toJson))

variable {content : List UInt8} {r : Registry}

/-- The entities of a document are as they can be read. -/
theorem sound_of_readSchema? (h : Entity.readSchema? content = some r.entities) :
    KeyList.Sorted r.entities ∧ ∀ p ∈ r.entities, p.2.Sound := by
  obtain ⟨o, -, ho⟩ := Option.bind_eq_some_iff.mp h
  obtain ⟨hsorted, hread⟩ := Json.Form.sorted_of_map? ho
  refine ⟨hsorted, fun p hp => ?_⟩
  obtain ⟨o, ho⟩ := hread p hp
  exact Entity.sound_of_ofOutline? ho

section Saved

variable (hsorted : KeyList.Sorted r.entities) (hsound : ∀ p ∈ r.entities, p.2.Sound)
  (hfloats : ∀ p ∈ r.entities, p.2.WithoutFloats) {met : List (String × Entity)}
  (hmet : Met met r.entities)
include hsorted hsound hfloats hmet

omit hsorted in
theorem readable_savedDocument : Json.Readable Json.maxDepth (savedDocument met) := by
  show Json.ReadableFields (flagsDepth + 3) _
  rw [Json.readableFields_iff, List.forall_mem_map]
  intro p hp
  obtain ⟨q, hq, hperm⟩ := hmet.exists_of_mem hp
  exact Entity.readable_toJson (fun f hf => (hsound q hq).properties f (hperm.subset hf))
    fun f hf => hfloats q hq f (hperm.subset hf)

/-- A saved document has the entities again. -/
theorem readSchema?_savedDocument :
    Entity.readSchema? (savedDocument met).bytes = some r.entities := by
  have hread : Json.Form.map? (Entity.ofOutline? (flagsDepth + 2)) (outlineOf (savedDocument met))
      = some (KeyList.ofList (met.map fun p => (p.1, p.2.assembled))) := by
    refine Json.Form.map?_outlineOf fun p hp => ?_
    obtain ⟨q, hq, hperm⟩ := hmet.exists_of_mem hp
    exact Entity.ofOutline?_toJson (fun f hf => (hsound q hq).properties f (hperm.subset hf))
      fun f hf => hfloats q hq f (hperm.subset hf)
  have hentities := congrArg Registry.entities
    (assembled_of_met ⟨hsorted, fun p hp => (hsound p hp).sorted⟩ hmet)
  rw [Entity.readSchema?, Json.outlineRead?_bytes (readable_savedDocument hsound hfloats hmet),
    Option.bind_some]
  exact hread.trans (congrArg some hentities)

/-- The value of a saved document does not depend on the order in which entities and properties
are met. -/
theorem read?_savedDocument : Json.read? (savedDocument met).bytes
    = some (.object (r.entities.map fun p => (p.1, canonical p.2.toJson))) := by
  let write (p : String × Entity) : String × Json := (p.1, canonical p.2.toJson)
  have hperm : (met.map write).Perm (r.entities.map write) := by
    refine hmet.map_perm fun p q hq hkey hname hproperties => ?_
    have hq := (hsound q hq).sorted
    exact Prod.ext hkey ((Entity.canonical_toJson hname hq hproperties).trans
      (Entity.canonical_toJson rfl hq (List.Perm.refl _)).symm)
  have hwritten : KeyList.Sorted (r.entities.map write) := List.pairwise_map.mpr hsorted
  rw [Json.read?_bytes (readable_savedDocument hsound hfloats hmet), savedDocument, canonical,
    Json.ofFields, Json.canonicalFields_eq, List.map_map]
  exact congrArg (fun m => some (Json.object m)) (KeyList.ofList_of_perm hwritten hperm)

end Saved

/-- Entities survive being saved and read again. Let a registry have the entities of any document
that can be read, without floats in their flags (an integer of more than 64 bits is read as one).
Serialized in whatever order the entities and their properties are met, they are read from a file
again, with the same properties and so the same junctions and tables; and serialized once more, they
are the same value. -/
theorem ofFile_saved (hread : Entity.readSchema? content = some r.entities)
    (hfloats : ∀ p ∈ r.entities, p.2.WithoutFloats) {met : List (String × Entity)}
    (hmet : Met met r.entities) (path : String) :
    ∃ saved, ofFile path (.bytes (savedDocument met).bytes) = .ok saved
      ∧ saved.entities = r.entities
      ∧ saved.mappingEntities = r.mappingEntities
      ∧ saved.definitions = r.definitions
      ∧ ∀ again, Met again saved.entities →
        ∃ v, Json.read? (savedDocument met).bytes = some v
          ∧ Json.read? (savedDocument again).bytes = some v := by
  obtain ⟨hsorted, hsound⟩ := sound_of_readSchema? hread
  refine ⟨⟨r.entities, .file path⟩, ?_, rfl, rfl, rfl, fun again hagain =>
    ⟨_, read?_savedDocument hsorted hsound hfloats hmet,
      read?_savedDocument hsorted hsound hfloats hagain⟩⟩
  rw [ofFile, readSchema?_savedDocument hsorted hsound hfloats hmet]

/-- A schema in the short form, with a field that is not known, a null and flags of both kinds. -/
def terseSchema : Json :=
  .object [("product", .array [.string "product", .object [
    ("notes", .object [("comment", .null), ("type", .string "text"), ("flags", .array [])]),
    ("id", .array [.string "uuid", .null, .null, .null,
      .object [("primary_key", .bool true)]])]])]

def terseId : Property := { kind := "uuid", flags := some (.object [("primary_key", .bool true)]) }

def terseNotes : Property := { kind := "text", flags := some (.array []) }

/-- The entities of the schema. -/
def terseEntities : KeyList Entity :=
  [("product", ⟨"product", [("id", terseId), ("notes", terseNotes)]⟩)]

/-- The entities as they may be met. -/
def terseMet : List (String × Entity) :=
  [("product", ⟨"product", [("notes", terseNotes), ("id", terseId)]⟩)]

/-- Saved with the properties the other way around, it is read again. -/
theorem terse_saved :
    Entity.readSchema? terseSchema.bytes = some terseEntities
      ∧ (∀ p ∈ terseEntities, p.2.WithoutFloats)
      ∧ Met terseMet terseEntities
      ∧ ∃ saved, ofFile "saved.json" (.bytes (savedDocument terseMet).bytes) = .ok saved
        ∧ saved.entities = terseEntities
        ∧ saved.definitions = (Registry.mk terseEntities .remote).definitions := by
  have hreadable : Json.Readable 5 terseSchema := by
    simp [terseSchema, Json.Readable, Json.ReadableFields, Json.ReadableItems]
  have hread : Entity.readSchema? terseSchema.bytes = some terseEntities := by
    rw [Entity.readSchema?, Json.outlineRead?_bytes hreadable]
    rfl
  have hfloats : ∀ p ∈ terseEntities, p.2.WithoutFloats := by
    refine List.forall_mem_singleton.mpr (List.forall_mem_cons.mpr ⟨?_, ?_⟩)
    · rintro _ ⟨⟩
      exact ⟨trivial, trivial⟩
    · refine List.forall_mem_singleton.mpr ?_
      rintro _ ⟨⟩
      trivial
  have hmet : Met terseMet terseEntities :=
    ⟨terseMet, List.Perm.refl _, .cons ⟨rfl, rfl, List.Perm.swap _ _ _⟩ .nil⟩
  obtain ⟨saved, hsaved, hentities, -, hdefinitions, -⟩ :=
    ofFile_saved (r := ⟨terseEntities, .remote⟩) hread hfloats hmet "saved.json"
  exact ⟨hread, hfloats, hmet, saved, hsaved, hentities, hdefinitions⟩

end Registry

end ShopTables
