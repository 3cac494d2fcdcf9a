import ShopTables.Api.Basic
import ShopTables.Schema.Table

/-!
# The registry — all entities of a shop

A registry holds the entities of a schema document by name, and the names of the junction
entities, which are those that some many-to-many association goes through. Every entity becomes a
table; a junction that the schema does not describe becomes none.
-/

namespace ShopTables

/-- Where a registry's entities come from. -/
inductive RegistrySource where
  | remote
  | file (path : String)
  | memory
  deriving DecidableEq

/-- The entities of a shop. -/
structure Registry where
  entities : KeyList Entity
  source : RegistrySource

namespace Registry

/-- The junction entities, in order and each once. -/
def mappingEntities (r : Registry) : List String :=
  KeyList.namesOf (r.entities.flatMap fun (_, e) => e.mappingTables)

def isMapping (r : Registry) (name : String) : Bool := r.mappingEntities.contains name

def get? (r : Registry) (name : String) : Option Entity := KeyList.get? r.entities name

def contains (r : Registry) (name : String) : Bool := KeyList.contains r.entities name

def size (r : Registry) : Nat := r.entities.length

def isEmpty (r : Registry) : Bool := r.entities.isEmpty

/-- The names of the entities, in order. -/
def names (r : Registry) : List String := r.entities.keys

/-- The table of each entity, by the entity's name. -/
def definitions (r : Registry) : KeyList TableDefinition :=
  let mappings := r.mappingEntities
  r.entities.map fun (name, e) => (name, TableDefinition.ofEntity name e (mappings.contains name))

def ofFile (path : String) : FileContent → Except ApiError Registry
  | .absent fault => .error (.io fault)
  | .directory => .error .decode
  | .bytes content =>
    match Entity.readSchema? content with
    | some entities => .ok ⟨entities, .file path⟩
    | none => .error .decode

def load {σ : Type} [Api σ] (ctx : Context) : Step ApiError σ Registry := do
  return ⟨← Api.getJson ctx schemaPath Entity.readSchema?, .remote⟩

end Registry

end ShopTables
