import ShopTables.Json.Reader

/-!
# Forms — documents with known fields

A form is read from an object or from an array. In an object, unknown fields are passed over
unread (their names must still be text) and a known field may stand once; in an array, the fields
stand in their order and the last ones may be missing, but nothing may follow them. `Form.read?`
gives for each known field its outline, if it is there; the readers below take a field further.
-/

namespace ShopTables.Json.Form

/-- Puts an outline at the place of a name. A name met before is refused, an unknown one passed
over. -/
def place? (key : String) (o : Outline) :
    List String → List (Option Outline) → Option (List (Option Outline))
  | n :: ns, slot :: slots =>
    if n = key then if slot.isSome then none else some (some o :: slots)
    else (place? key o ns slots).map (slot :: ·)
  | _, slots => some slots

def ofMembers? (names : List String) :
    List (List Piece × Outline) → List (Option Outline) → Option (List (Option Outline))
  | [], slots => some slots
  | (key, o) :: rest, slots =>
    match stringOf? key with
    | none => none
    | some k => (place? k o names slots).bind (ofMembers? names rest)

/-- For each name, the outline of its field, if it is there. -/
def read? (names : List String) : Outline → Option (List (Option Outline))
  | .object members => ofMembers? names members (List.replicate names.length none)
  | .array items =>
    if items.length ≤ names.length then
      some (items.map some ++ List.replicate (names.length - items.length) none)
    else none
  | _ => none

/-- A string; a missing field is `default`. -/
def string? (default : Option String) : Option Outline → Option String
  | none => default
  | some (.string ps) => stringOf? ps
  | some _ => none

def optionalString? : Option Outline → Option (Option String)
  | none => some none
  | some .null => some none
  | some (.string ps) => (stringOf? ps).map some
  | some _ => none

/-- An integer of a range, that may be missing or null. -/
def optionalInt? (low high : Int) : Option Outline → Option (Option Int)
  | none => some none
  | some .null => some none
  | some (.number l) =>
    match l.number? with
    | some (.integer i) => if low ≤ i ∧ i ≤ high then some (some i) else none
    | _ => none
  | some _ => none

/-- A map: an object's members by name, each read by `f`; of two with one name the later one
stays, but both must be readable. -/
def map? (f : Outline → Option α) : Outline → Option (KeyList α)
  | .object members =>
    (members.mapM fun (key, o) => do return (← stringOf? key, ← f o)).map KeyList.ofList
  | _ => none

/-- A list: an array's items, each read by `f`. -/
def list? (f : Outline → Option α) : Outline → Option (List α)
  | .array items => items.mapM f
  | _ => none

end ShopTables.Json.Form
