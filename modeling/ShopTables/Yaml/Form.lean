import ShopTables.Yaml.Kind
import ShopTables.Yaml.Node

/-!
# Forms — mappings with known fields

A form is read from a mapping, or from an empty plain scalar, which has no fields. Each key must be
a scalar; fields with unknown names are passed over, a known one may stand once. A text is taken
from a scalar of any style as it stands, a count only from one that may be taken for a number.
-/

namespace ShopTables.Yaml.Document

def text? (d : Document) (n : Node) : Option String :=
  match d.resolve? n with
  | some (.scalar _ _ text) => some (String.ofList text)
  | _ => none

/-- The tag that lets a literal block stand for an integer. -/
def integerTag : List Char := "tag:yaml.org,2002:int".toList

/-- The count of 64 bits that a scalar stands for. -/
def count? (d : Document) (n : Node) : Option Nat :=
  match d.resolve? n with
  | some (.scalar style tag text) =>
    if style = .plain ∨ (style = .literal ∧ tag = some integerTag) then
      (unsigned? text).filter (· < Nat.pow 2 64)
    else none
  | _ => none

def entries? (d : Document) (n : Node) : Option (List (Node × Node)) :=
  match d.resolve? n with
  | some (.mapping entries) => some entries
  | some (.scalar .plain _ []) => some []
  | _ => none

/-- The fields of entries that have one of the names. -/
def fieldsOf? (d : Document) (names : List String) :
    List (Node × Node) → Option (List (String × Node))
  | [] => some []
  | (key, value) :: entries => do
    let name ← d.text? key
    let fields ← fieldsOf? d names entries
    if !names.contains name then some fields
    else if (fields.lookup name).isSome then none
    else some ((name, value) :: fields)

/-- The fields of a form that have one of the names. -/
def fields? (d : Document) (names : List String) (n : Node) : Option (List (String × Node)) :=
  (d.entries? n).bind (d.fieldsOf? names)

/-- Reads a field by `f`; a missing one is `default`. -/
def field? {α : Type} (fields : List (String × Node)) (f : Node → Option α) (name : String)
    (default : α) : Option α :=
  match fields.lookup name with
  | some value => f value
  | none => some default

end ShopTables.Yaml.Document
