import ShopTables.KeyList
import ShopTables.Binary64.Basic

/-!
# JSON values

A number is an integer, kept as it is, or a number of the double format. The fields of an object
that was read stand in key order, each name once (`Json.ofFields`); an object made to be written
may have them in the order its format wants.
-/

namespace ShopTables

/-- A number of a JSON document. -/
inductive Json.Number where
  | integer (i : Int)
  | float (x : Binary64)
  deriving DecidableEq

/-- A JSON value. -/
inductive Json where
  | null
  | bool (b : Bool)
  | number (n : Json.Number)
  | string (s : String)
  | array (items : List Json)
  | object (fields : List (String × Json))

namespace Json

/-- A number as a double; an integer goes to the nearest one. -/
def Number.toBinary64 : Number → Binary64
  | .integer i => Binary64.ofInt i
  | .float x => x

def ofInt (i : Int) : Json := .number (.integer i)

/-- The object of fields in any order; of two with one name the later one stays. -/
def ofFields (fields : List (String × Json)) : Json := .object (KeyList.ofList fields)

/-- Is this `null`? -/
def isNull : Json → Bool
  | .null => true
  | _ => false

/-- The fields of an object; nothing else has any. -/
def fields? : Json → Option (KeyList Json)
  | .object fields => some fields
  | _ => none

end Json

end ShopTables
