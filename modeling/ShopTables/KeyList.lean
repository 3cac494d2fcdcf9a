/-!
# Key lists — maps kept in key order

A map from names to values is the list of its pairs in strictly increasing order of the names.
Names are compared by code points, which is also the order of their UTF-8 bytes. Every map the
program prints or walks is kept in this form, so what it shows never depends on the order in
which the pairs arrived; of two pairs with one name the later one stays (`KeyList.ofList`).
-/

namespace ShopTables

/-- A map from names to values, as its pairs in key order. -/
abbrev KeyList (β : Type u) := List (String × β)

namespace KeyList

variable {β : Type u}

/-- The pairs stand in strictly increasing order of their names. -/
def Sorted (m : KeyList β) : Prop := List.Pairwise (fun a b => a.1 < b.1) m

/-- Adds a pair, in the place of any pair with the same name. -/
def insert (key : String) (value : β) : KeyList β → KeyList β
  | [] => [(key, value)]
  | (k, v) :: rest =>
    if key < k then (key, value) :: (k, v) :: rest
    else if key = k then (key, value) :: rest
    else (k, v) :: insert key value rest

def get? (m : KeyList β) (key : String) : Option β :=
  (m.find? (fun p => p.1 == key)).map (·.2)

def contains (m : KeyList β) (key : String) : Bool := m.any (fun p => p.1 == key)

/-- The names, in order. -/
def keys (m : KeyList β) : List String := m.map (·.1)

/-- The map of a list of pairs; of two pairs with one name the later one stays. -/
def ofList (pairs : List (String × β)) : KeyList β :=
  pairs.foldl (fun m p => insert p.1 p.2 m) []

/-- The names of a list, in order and each once. -/
def namesOf (names : List String) : List String :=
  (ofList (names.map (fun n => (n, ())))).keys

@[simp] theorem get?_nil (key : String) : get? ([] : KeyList β) key = none := rfl

@[simp] theorem keys_nil : keys ([] : KeyList β) = [] := rfl

@[simp] theorem keys_cons (p : String × β) (m : KeyList β) : keys (p :: m) = p.1 :: keys m := rfl

@[simp] theorem ofList_nil : ofList ([] : List (String × β)) = [] := rfl

theorem sorted_nil : Sorted ([] : KeyList β) := List.Pairwise.nil

end KeyList

end ShopTables
