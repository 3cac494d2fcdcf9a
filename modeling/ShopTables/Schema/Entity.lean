import ShopTables.Json.Form
import ShopTables.Json.Printer

/-!
# Entities — what the shop says about its data

The shop describes each kind of record as an `Entity`: a name and a map of `Property` descriptors.
Both are read from documents in object or array form, and written back as objects. The flags of a
property stay as they came, because the shop sends an object for a flagged property and an empty
array for an unflagged one.
-/

namespace ShopTables

/-- One field of an entity. -/
structure Property where
  /-- The type tag: `uuid`, `string`, `json_object`, … -/
  kind : String := ""
  /-- How an association relates, such as `many_to_many`. -/
  relation : Option String := none
  /-- The entity an association leads to. -/
  entity : Option String := none
  /-- The junction entity of a many-to-many association. -/
  mapping : Option String := none
  flags : Option Json := none

/-- A kind of record. -/
structure Entity where
  name : String := ""
  properties : KeyList Property := []

/-! ### Tags -/

def associationKind : String := "association"

/-- The flag that marks a property as part of the primary key. -/
def primaryKeyFlag : String := "primary_key"

def manyToMany : String := "many_to_many"

namespace Property

def ofKind (kind : String) : Property := { kind }

/-- A many-to-many association with an entity through a junction entity. -/
def throughMapping (entity mapping : String) : Property :=
  { kind := associationKind, relation := some manyToMany, entity := some entity,
    mapping := some mapping }

/-- Marks a property as part of the primary key. Other flags stay if they form an object. -/
def markPrimary (p : Property) : Property :=
  let flags := (p.flags.bind Json.fields?).getD []
  { p with flags := some (.object (flags.insert primaryKeyFlag (.bool true))) }

def isAssociation (p : Property) : Bool := p.kind == associationKind

/-- Is the property part of the primary key? Only an object of flags can say so. -/
def isPrimary (p : Property) : Bool :=
  match p.flags with
  | some (.object flags) => KeyList.contains flags primaryKeyFlag
  | _ => false

/-- The fields of a property document, in their order. -/
def fieldNames : List String := ["type", "relation", "entity", "mapping", "flags"]

/-- Flags as they came; null is none. -/
def readFlags? (depth : Nat) : Option Json.Outline → Option (Option Json)
  | none => some none
  | some .null => some none
  | some o => (Json.ofOutline? depth o).map some

/-- Reads a property document inside which arrays and objects may nest `depth` deep. -/
def ofOutline? (depth : Nat) (o : Json.Outline) : Option Property :=
  match Json.Form.read? fieldNames o with
  | some [kind, relation, entity, mapping, flags] => do
    return {
      kind := ← Json.Form.string? (some "") kind
      relation := ← Json.Form.optionalString? relation
      entity := ← Json.Form.optionalString? entity
      mapping := ← Json.Form.optionalString? mapping
      flags := ← readFlags? depth flags }
  | _ => none

def read? (bytes : List UInt8) : Option Property :=
  (Json.Outline.read? bytes).bind (ofOutline? (Json.maxDepth - 1))

/-- A property as a document: the type tag, then what else is there. -/
def toJson (p : Property) : Json :=
  let text (name : String) (s : Option String) : List (String × Json) :=
    (s.map fun s => (name, Json.string s)).toList
  .object (("type", .string p.kind) :: (text "relation" p.relation ++ text "entity" p.entity
    ++ text "mapping" p.mapping ++ (p.flags.map fun f => ("flags", f)).toList))

end Property

namespace Entity

/-- Adds a property, in the place of any with the same name. -/
def withProperty (e : Entity) (name : String) (p : Property) : Entity :=
  { e with properties := e.properties.insert name p }

/-- The junction entities that an entity's many-to-many associations name, in order and each
once. -/
def mappingTables (e : Entity) : List String :=
  KeyList.namesOf (e.properties.filterMap fun (_, p) =>
    if p.relation = some manyToMany then p.mapping.filter (· ≠ "") else none)

/-- Reads an entity document inside which arrays and objects may nest `depth` deep. -/
def ofOutline? (depth : Nat) (o : Json.Outline) : Option Entity :=
  match Json.Form.read? ["entity", "properties"] o with
  | some [name, properties] => do
    let name ← Json.Form.string? (some "") name
    let properties ←
      match properties with
      | none => some []
      | some m => Json.Form.map? (Property.ofOutline? (depth - 2)) m
    return { name, properties }
  | _ => none

def read? (bytes : List UInt8) : Option Entity :=
  (Json.Outline.read? bytes).bind (ofOutline? (Json.maxDepth - 1))

/-- Reads a whole schema document: entities by name. -/
def readSchema? (bytes : List UInt8) : Option (KeyList Entity) :=
  (Json.Outline.read? bytes).bind (Json.Form.map? (ofOutline? (Json.maxDepth - 2)))

def toJson (e : Entity) : Json :=
  .object [("entity", .string e.name),
    ("properties", .object (e.properties.map fun (k, p) => (k, p.toJson)))]

end Entity

end ShopTables
