import ShopTables.Config.Basic
import ShopTables.Registry
import ShopTables.Table.Handle
import ShopTables.Text.Characters

/-!
# Databases — the tables of a shop by name

A database has one table for each entity of a registry. A table is looked up by the name its
entity is registered under, whatever the ASCII case, and every lookup gives a handle of its own.
-/

namespace ShopTables

/-- The tables of a shop. -/
structure Database where
  name : String
  /-- Each table by the name it is looked up by, in small letters. -/
  tables : KeyList TableDefinition
  partitionCount : Nat

namespace Database

def ofRegistry (config : AdapterConfig) (r : Registry) : Database where
  name := config.databaseName
  tables := KeyList.ofList (r.definitions.map fun (name, d) => (Text.lowerAscii name, d))
  partitionCount := config.partitions

/-- Asks the shop for its entities and makes a database of them. -/
def connect {σ : Type} [Api σ] (ctx : Context) (config : AdapterConfig) :
    Step ApiError σ Database := do
  return ofRegistry config (← Registry.load ctx)

def size (db : Database) : Nat := db.tables.length

def isEmpty (db : Database) : Bool := db.tables.isEmpty

/-- A handle to the table of a name, in any ASCII case. -/
def openTable (db : Database) (name : String) : Except TableError TableHandle :=
  match KeyList.get? db.tables (Text.lowerAscii name) with
  | some definition => .ok { definition, partitionCount := db.partitionCount }
  | none => .error (.tableNotFound name)

/-- The names of the tables, in order. -/
def names (db : Database) : List String :=
  (db.tables.map (·.2.name)).mergeSort fun a b => decide (a ≤ b)

end Database

end ShopTables
