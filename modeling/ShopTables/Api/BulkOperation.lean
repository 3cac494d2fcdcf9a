import ShopTables.Api.Request

/-!
# Bulk operations

A batch of changes is an object of operations by label. One operation deletes any number of an
entity's records, each named by the values of its primary key as texts.
-/

namespace ShopTables

/-- The names and values that single out a record. -/
abbrev RecordKey := KeyList String

/-- One entry of a batch of changes. -/
structure BulkOperation where
  entity : String
  action : String
  payload : List RecordKey
  deriving DecidableEq

namespace BulkOperation

def deleteAction : String := "delete"

/-- Deletes the records of a table that have these keys. -/
def delete (d : TableDefinition) (keys : List RecordKey) : BulkOperation where
  entity := d.apiName
  action := deleteAction
  payload := keys

def label (o : BulkOperation) : String := o.action ++ "-" ++ o.entity

def keyJson (key : RecordKey) : Json := .object (key.map fun (name, value) => (name, .string value))

def toJson (o : BulkOperation) : Json :=
  .object [("entity", .string o.entity), ("action", .string o.action),
    ("payload", .array (o.payload.map keyJson))]

def request (o : BulkOperation) : Json := .object [(o.label, o.toJson)]

end BulkOperation

end ShopTables
