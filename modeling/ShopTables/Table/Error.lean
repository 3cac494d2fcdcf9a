import ShopTables.Api.Error
import ShopTables.RowStore.Error
import ShopTables.Schema.Conversion

/-!
# What can go wrong with a table

A statement can fail at the shop, at the row store, at a value its column cannot hold, or at the
table itself.
-/

namespace ShopTables

/-- What can go wrong with a table. -/
inductive TableError where
  | api (e : ApiError)
  | store (e : StoreError)
  | conversion (m : Mismatch)
  | tableNotFound (name : String)
  /-- Rows or a deleter were asked for before the table was read. -/
  | notMaterialized (table : String)
  | missingPrimaryKey (table : String)

namespace TableError

def message : TableError → String
  | .api e => e.message
  | .store e => e.message
  | .conversion m => "conversion error: " ++ m.message
  | .tableNotFound name => "table not found: " ++ name
  | .notMaterialized table => "table " ++ table ++ " has not been materialized in this statement"
  | .missingPrimaryKey table => "table " ++ table ++ " has no primary key"

/-- Did the shop fail to be reached or to serve? -/
def isTransport : TableError → Bool
  | .api e => e.isTransport
  | _ => false

/-- Was an answer not the expected document? -/
def isDecode : TableError → Bool
  | .api e => e.isDecode
  | _ => false

end TableError

end ShopTables
