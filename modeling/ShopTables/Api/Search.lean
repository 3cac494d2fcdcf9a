import ShopTables.Json.Form

/-!
# Search answers

A search is answered by a list of records and perhaps the number of all records there are. The
answer is a form, so it may also come as an array of the two.
-/

namespace ShopTables

/-- The answer to a search. -/
structure SearchAnswer where
  total : Option Int
  records : List (KeyList Json)

namespace SearchAnswer

def maxTotal : Int := 18446744073709551615

/-- Reads one record inside which arrays and objects may nest `depth` deep. -/
def record? (depth : Nat) : Json.Outline → Option (KeyList Json)
  | .object members => (Json.ofMembers? depth members).map KeyList.ofList
  | _ => none

/-- Reads an answer. The records are required. -/
def ofOutline? (o : Json.Outline) : Option SearchAnswer :=
  match Json.Form.read? ["total", "data"] o with
  | some [total, some data] => do
    return {
      total := ← Json.Form.optionalInt? 0 maxTotal total
      records := ← Json.Form.list? (record? (Json.maxDepth - 3)) data }
  | _ => none

def read? (bytes : List UInt8) : Option SearchAnswer :=
  (Json.Outline.read? bytes).bind ofOutline?

end SearchAnswer

end ShopTables
