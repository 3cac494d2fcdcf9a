import ShopTables.Json.Reader
import ShopTables.Json.Printer
import ShopTables.Schema.Table

/-!
# Requests to the shop

A request is a method, a path below the shop's address and perhaps a body. There are four paths:
the schema of all entities, the search for one entity's records, the batch of changes, and the
access token.
-/

namespace ShopTables

/-- How a request is made. -/
inductive Method where
  | get
  | post
  deriving DecidableEq

def Method.name : Method → String
  | .get => "GET"
  | .post => "POST"

/-- A request, relative to the shop's address. -/
structure Request where
  method : Method
  path : String
  body : Option (List UInt8) := none
  deriving DecidableEq

/-- The body of a request as a document, if it is one. -/
def Request.document? (r : Request) : Option Json := r.body.bind Json.read?

def schemaPath : String := "/api/_info/entity-schema.json"

def syncPath : String := "/api/_action/sync"

def tokenPath : String := "/api/oauth/token"

def searchPath (entity : String) : String := "/api/search/" ++ apiName entity

/-! ### Bodies -/

/-- What a request is to carry: a document, or entries by key where the keys may be any
documents. -/
inductive Payload where
  | document (v : Json)
  | entries (pairs : List (Json × Json))

namespace Payload

/-- An entry as a field; only text can be the key of one. -/
def field? : Json × Json → Option (String × Json)
  | (.string key, v) => some (key, v)
  | _ => none

/-- The bytes of a payload, unless it has a key that is no text. -/
def bytes? : Payload → Option (List UInt8)
  | .document v => some v.bytes
  | .entries pairs => (pairs.mapM field?).map fun fields => (Json.object fields).bytes

end Payload

end ShopTables
