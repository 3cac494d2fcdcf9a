import ShopTables.Proofs.Json.Leaves
import ShopTables.Proofs.Json.Outline
import ShopTables.Proofs.Text.Utf8

/-!
# Written values are read back

```
    v  --bytes-->  UTF-8  --decode, value?-->  outlineOf v  --ofOutline?-->  canonical v
```

A value without floats, written without blanks, is read as its outline (`outlineRead?_bytes`) and
so as the same value with the fields of its objects in key order (`read?_bytes`). Both inductions
are on the value, one theorem for each of values, items and fields; in the first, what follows the
value is carried along, and need only not go on with a number (`EndsNumber`).
-/

namespace ShopTables.Json

open Outline (value? items? members? skipBlanks isBlank)

mutual

/-- Will the value be read back when it was written? It holds no floats, its integers have 64 bits
with or without sign, and its arrays and objects nest at most `depth` deep. -/
def Readable : Nat → Json → Prop
  | _, .null => True
  | _, .bool _ => True
  | _, .number (.integer i) => -9223372036854775808 ≤ i ∧ i < 18446744073709551616
  | _, .number (.float _) => False
  | _, .string _ => True
  | 0, .array _ => False
  | d + 1, .array items => ReadableItems d items
  | 0, .object _ => False
  | d + 1, .object fields => ReadableFields d fields

/-- Will the items be read back? -/
def ReadableItems : Nat → List Json → Prop
  | _, [] => True
  | d, v :: vs => Readable d v ∧ ReadableItems d vs

/-- Will the values of the fields be read back? -/
def ReadableFields : Nat → List (String × Json) → Prop
  | _, [] => True
  | d, (_, v) :: fs => Readable d v ∧ ReadableFields d fs

end

mutual

/-- The value with the fields of every object in key order. -/
def canonical : Json → Json
  | .null => .null
  | .bool b => .bool b
  | .number n => .number n
  | .string s => .string s
  | .array items => .array (canonicalItems items)
  | .object fields => ofFields (canonicalFields fields)

/-- The items with the fields of every object in key order. -/
def canonicalItems : List Json → List Json
  | [] => []
  | v :: vs => canonical v :: canonicalItems vs

/-- The fields as they stand, with the fields of every object inside in key order. -/
def canonicalFields : List (String × Json) → List (String × Json)
  | [] => []
  | (k, v) :: fs => (k, canonical v) :: canonicalFields fs

end

mutual

/-- The outline of a value as it is written. -/
def outlineOf : Json → Outline
  | .null => .null
  | .bool b => .bool b
  | .number (.integer i) => .number (literalOf i)
  | .number (.float _) => .null
  | .string s => .string (s.toList.map pieceOf)
  | .array items => .array (outlinesOf items)
  | .object fields => .object (membersOf fields)

/-- The outlines of items. -/
def outlinesOf : List Json → List Outline
  | [] => []
  | v :: vs => outlineOf v :: outlinesOf vs

/-- The members of fields. -/
def membersOf : List (String × Json) → List (List Piece × Outline)
  | [] => []
  | (k, v) :: fs => (k.toList.map pieceOf, outlineOf v) :: membersOf fs

end

/-! ### Leaves -/

theorem map_writeString (s : String) (rest : Outline.Input) :
    (writeString s).map some ++ rest
      = some '"' :: ((s.toList.flatMap escape).map some ++ some '"' :: rest) := by
  simp [writeString]

theorem value?_writeString (s : String) (rest : Outline.Input) :
    value? ((writeString s).map some ++ rest) = some (.string (s.toList.map pieceOf), rest) := by
  rw [map_writeString, Outline.value?_quote, readString_escapes, Option.map_some]

theorem value?_writeInt (i : Int) {rest : Outline.Input} (hr : EndsNumber rest) :
    value? ((writeInt i).map some ++ rest) = some (.number (literalOf i), rest) := by
  rw [writeInt, literalOf]
  by_cases hneg : i < 0
  · rw [if_pos hneg, decide_eq_true hneg, List.cons_append, List.map_cons, List.nil_append,
      List.cons_append, Outline.value?_minus, readNumber_toDigits true i.natAbs hr,
      Option.map_some]
  · rw [if_neg hneg, decide_eq_false hneg, List.nil_append]
    have hdigits : ∀ c ∈ Nat.toDigits 10 i.natAbs, c.isDigit = true := fun c hc =>
      Nat.isDigit_of_mem_toDigits (by decide) (by decide) hc
    have hread := readNumber_toDigits false i.natAbs hr
    cases hds : Nat.toDigits 10 i.natAbs with
    | nil => exact absurd hds Nat.toDigits_ne_nil
    | cons d ds =>
      rw [hds, List.map_cons, List.cons_append] at hread
      rw [List.map_cons, List.cons_append, Outline.value?_digit (hdigits d (by simp [hds])), hread,
        Option.map_some]

/-! ### Reading outlines -/

theorem endsNumber_cons {c : Char} (h : c = ',' ∨ c = ']' ∨ c = '}') (rest : Outline.Input) :
    EndsNumber (some c :: rest) := by
  intro d rest' hd
  cases hd
  rcases h with rfl | rfl | rfl <;> decide

theorem endsNumber_nil : EndsNumber [] := by
  intro c rest h
  cases h

mutual

/-- A written value is read as its outline, whatever follows. -/
theorem value?_compact : ∀ (d : Nat) (v : Json) (rest : Outline.Input), Readable d v →
    EndsNumber rest → value? ((compact v).map some ++ rest) = some (outlineOf v, rest)
  | _, .null, rest, _, _ => by rw [outlineOf, compact, Outline.value?_null]
  | _, .bool b, rest, _, _ => by rw [outlineOf, compact, Outline.value?_bool]
  | _, .number (.integer i), rest, _, hr => by
    rw [outlineOf, compact, writeNumber, value?_writeInt i hr]
  | d, .number (.float x), rest, hv, _ => by
    rw [Readable] at hv
    exact hv.elim
  | _, .string s, rest, _, _ => by rw [outlineOf, compact, value?_writeString]
  | 0, .array items, rest, hv, _ => by
    rw [Readable] at hv
    exact hv.elim
  | d + 1, .array [], rest, _, _ => by
    -- an array without items is closed before an item is looked for
    rw [outlineOf, outlinesOf]
    show value? (some '[' :: some ']' :: rest) = _
    rw [Outline.value?_bracket, Outline.skipBlanks_cons (by decide)]
    rfl
  | d + 1, .array (v :: vs), rest, hv, _ => by
    rw [Readable] at hv
    rw [outlineOf, compact, List.map_cons, List.map_append, List.cons_append, List.append_assoc]
    exact Outline.value?_array (items?_compact d v vs rest hv)
  | 0, .object fields, rest, hv, _ => by
    rw [Readable] at hv
    exact hv.elim
  | d + 1, .object [], rest, _, _ => by
    rw [outlineOf, membersOf]
    show value? (some '{' :: some '}' :: rest) = _
    rw [Outline.value?_brace, Outline.skipBlanks_cons (by decide)]
    rfl
  | d + 1, .object ((k, v) :: fs), rest, hv, _ => by
    rw [Readable] at hv
    rw [outlineOf, compact, List.map_cons, List.map_append, List.cons_append, List.append_assoc]
    exact Outline.value?_object (members?_compact d k v fs rest hv)

/-- Written items are read up to the closing bracket. -/
theorem items?_compact : ∀ (d : Nat) (v : Json) (vs : List Json) (rest : Outline.Input),
    ReadableItems d (v :: vs) →
    items? ((compactItems (v :: vs)).map some ++ some ']' :: rest)
      = some (outlinesOf (v :: vs), rest)
  | d, v, [], rest, hv => by
    rw [ReadableItems] at hv
    have ho := value?_compact d v (some ']' :: rest) hv.1 (endsNumber_cons (by simp) _)
    rw [outlinesOf, outlinesOf, compactItems]
    exact Outline.items?_last ho
  | d, v, w :: vs, rest, hv => by
    rw [ReadableItems] at hv
    -- the comma ends the first item, and the others are read from behind it
    have hos := items?_compact d w vs rest hv.2
    have ho := value?_compact d v
      (some ',' :: ((compactItems (w :: vs)).map some ++ some ']' :: rest)) hv.1
      (endsNumber_cons (by simp) _)
    rw [outlinesOf, compactItems, List.map_append, List.map_cons, List.append_assoc,
      List.cons_append]
    · exact Outline.items?_cons ho hos
    · simp

/-- Written fields are read up to the closing brace. -/
theorem members?_compact : ∀ (d : Nat) (k : String) (v : Json) (fs : List (String × Json))
    (rest : Outline.Input), ReadableFields d ((k, v) :: fs) →
    members? ((compactFields ((k, v) :: fs)).map some ++ some '}' :: rest)
      = some (membersOf ((k, v) :: fs), rest)
  | d, k, v, [], rest, hv => by
    rw [ReadableFields] at hv
    have ho := value?_compact d v (some '}' :: rest) hv.1 (endsNumber_cons (by simp) _)
    rw [membersOf, membersOf, compactFields, List.map_append, List.map_cons, List.append_assoc,
      List.cons_append, map_writeString]
    exact Outline.members?_last (readString_escapes _ _) ho
  | d, k, v, (l, w) :: fs, rest, hv => by
    rw [ReadableFields] at hv
    have hms := members?_compact d l w fs rest hv.2
    have ho := value?_compact d v
      (some ',' :: ((compactFields ((l, w) :: fs)).map some ++ some '}' :: rest)) hv.1
      (endsNumber_cons (by simp) _)
    rw [membersOf, compactFields, List.map_append, List.map_cons, List.map_append, List.map_cons,
      List.append_assoc, List.cons_append, List.append_assoc, List.cons_append, map_writeString]
    · exact Outline.members?_cons (readString_escapes _ _) ho hms
    · simp

end

/-- The outline of a value that was written. -/
theorem outlineRead?_bytes {v : Json} {d : Nat} (hv : Readable d v) :
    Outline.read? v.bytes = some (outlineOf v) := by
  have ho := value?_compact d v [] hv endsNumber_nil
  rw [List.append_nil] at ho
  rw [Outline.read?_eq, bytes, Text.Utf8.decode_encode, ho]
  rfl

/-! ### Values of outlines -/

mutual

/-- The outline of a value means the value. -/
theorem ofOutline?_outlineOf : ∀ (d : Nat) (v : Json), Readable d v →
    ofOutline? d (outlineOf v) = some (canonical v)
  | _, .null, _ => by rw [outlineOf, ofOutline?, canonical]
  | _, .bool b, _ => by rw [outlineOf, ofOutline?, canonical]
  | _, .number (.integer i), hv => by
    rw [Readable] at hv
    rw [outlineOf, ofOutline?, number?_literalOf hv.1 hv.2, canonical, Option.map_some]
  | _, .number (.float x), hv => by
    rw [Readable] at hv
    exact hv.elim
  | _, .string s, _ => by
    rw [outlineOf, ofOutline?, stringOf?_pieceOf, canonical, Option.map_some]
  | 0, .array items, hv => by
    rw [Readable] at hv
    exact hv.elim
  | d + 1, .array items, hv => by
    rw [Readable] at hv
    rw [outlineOf, ofOutline?, ofOutlines?_outlinesOf d items hv, canonical]
    rfl
  | 0, .object fields, hv => by
    rw [Readable] at hv
    exact hv.elim
  | d + 1, .object fields, hv => by
    rw [Readable] at hv
    rw [outlineOf, ofOutline?, ofMembers?_membersOf d fields hv, canonical]
    rfl

/-- The outlines of items mean the items. -/
theorem ofOutlines?_outlinesOf : ∀ (d : Nat) (items : List Json), ReadableItems d items →
    ofOutlines? d (outlinesOf items) = some (canonicalItems items)
  | _, [], _ => by rw [outlinesOf, ofOutlines?, canonicalItems]
  | d, v :: vs, hv => by
    rw [ReadableItems] at hv
    rw [outlinesOf, ofOutlines?, ofOutline?_outlineOf d v hv.1,
      ofOutlines?_outlinesOf d vs hv.2, canonicalItems]

/-- The members of fields mean the fields. -/
theorem ofMembers?_membersOf : ∀ (d : Nat) (fields : List (String × Json)),
    ReadableFields d fields →
    ofMembers? d (membersOf fields) = some (canonicalFields fields)
  | _, [], _ => by rw [membersOf, ofMembers?, canonicalFields]
  | d, (k, v) :: fs, hv => by
    rw [ReadableFields] at hv
    rw [membersOf, ofMembers?, stringOf?_pieceOf, ofOutline?_outlineOf d v hv.1,
      ofMembers?_membersOf d fs hv.2, canonicalFields]

end

/-- A value that was written is read back, with the fields of its objects in key order. -/
theorem read?_bytes {v : Json} (hv : Readable maxDepth v) : read? v.bytes = some (canonical v) := by
  rw [read?, outlineRead?_bytes hv]
  exact ofOutline?_outlineOf maxDepth v hv

end ShopTables.Json
