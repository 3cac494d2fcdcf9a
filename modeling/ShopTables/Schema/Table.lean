import ShopTables.Schema.Entity

/-!
# Table definitions — entities as tables

Each property that is no association becomes a column. The columns of the primary key come first,
each group in order of names, so a definition does not depend on the order of the properties. A
column may be null unless it is part of the primary key.
-/

namespace ShopTables

/-- The type of a column. -/
inductive ColumnType where
  | text
  | json
  | boolean
  | double
  deriving DecidableEq

/-- The name of a type as it is shown. -/
def ColumnType.sqlName : ColumnType → String
  | .text => "TEXT"
  | .json => "JSON"
  | .boolean => "BOOLEAN"
  | .double => "DOUBLE"

/-- A column of a table. -/
structure Column where
  name : String
  type : ColumnType
  nullable : Bool
  primaryKey : Bool
  /-- The entity that the column comes from. -/
  source : String
  comment : Option String
  deriving DecidableEq

def jsonComment : String := "json"

namespace Property

/-- The type of a property's column. Unknown tags are text. -/
def columnType (p : Property) : ColumnType :=
  if p.kind = associationKind then .json
  else if p.kind = "boolean" then .boolean
  else if p.kind = "float" ∨ p.kind = "int" then .double
  else .text

/-- The comment on a property's column: tags that begin with `json` mark documents. -/
def comment (p : Property) : Option String :=
  if "json".toList.isPrefixOf p.kind.toList then some jsonComment else none

end Property

namespace Column

def ofProperty (name source : String) (p : Property) : Column where
  name := name
  type := p.columnType
  nullable := !p.isPrimary
  primaryKey := p.isPrimary
  source := source
  comment := p.comment

def isJson (c : Column) : Bool := c.comment == some jsonComment

end Column

/-- The columns of an entity: those of the primary key, then the others, each group in order of
names. -/
def Entity.columns (e : Entity) : List Column :=
  let columns := (e.properties.filter fun (_, p) => !p.isAssociation).map
    fun (name, p) => Column.ofProperty name e.name p
  columns.filter (·.primaryKey) ++ columns.filter (!·.primaryKey)

/-- The name of an entity in paths and labels: hyphens for underscores. -/
def apiName (name : String) : String :=
  String.ofList (name.toList.map fun c => if c = '_' then '-' else c)

/-- The layout of a table. -/
structure TableDefinition where
  name : String
  columns : List Column
  /-- Does the table join two others in a many-to-many association? -/
  isMapping : Bool
  deriving DecidableEq

namespace TableDefinition

/-- The table of an entity. An entity without a name takes the one it is registered under. -/
def ofEntity (registered : String) (e : Entity) (isMapping : Bool) : TableDefinition :=
  let name := if e.name = "" then registered else e.name
  { name
    columns := e.columns.map fun c => if c.source = "" then { c with source := name } else c
    isMapping }

/-- The places of the columns of the primary key. -/
def primaryKeyOrdinals (d : TableDefinition) : List Nat :=
  d.columns.zipIdx.filterMap fun (c, i) => if c.primaryKey then some i else none

def indexOf (d : TableDefinition) (name : String) : Option Nat :=
  d.columns.findIdx? (·.name == name)

def apiName (d : TableDefinition) : String := ShopTables.apiName d.name

end TableDefinition

end ShopTables
