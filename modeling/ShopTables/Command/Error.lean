import ShopTables.Command.Filter
import ShopTables.Table.Error

/-!
# Why a command fails

A failure says what the command was about to do and, after it, what went wrong with that.
-/

namespace ShopTables

/-- Why a command fails. -/
inductive CommandError where
  | loadConfig (path : String) (e : ApiError)
  | invalidConfig (path : String) (e : ApiError)
  | createClient (e : ApiError)
  /-- The shop gives no schema. -/
  | loadSchema (e : ApiError)
  | readSchemaFile (path : String) (e : ApiError)
  /-- The table cannot be opened. -/
  | table (e : TableError)
  | filter (e : FilterError)
  | readRows (table : String) (e : TableError)
  | deleteRows (table : String) (e : TableError)

def CommandError.message : CommandError → String
  | .loadConfig path e => "Failed to load config '" ++ path ++ "': " ++ e.message
  | .invalidConfig path e => "Invalid config '" ++ path ++ "': " ++ e.message
  | .createClient e => "Failed to create API client: " ++ e.message
  | .loadSchema e => "Failed to load entity schema: " ++ e.message
  | .readSchemaFile path e => "Failed to read schema file '" ++ path ++ "': " ++ e.message
  | .table e => e.message
  | .filter e => e.message
  | .readRows name e => "Failed to read " ++ name ++ ": " ++ e.message
  | .deleteRows name e => "Delete from " ++ name ++ " failed: " ++ e.message

end ShopTables
