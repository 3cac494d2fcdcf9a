import ShopTables.Json.Form
import ShopTables.Proofs.Fallible
import ShopTables.Proofs.Json.RoundTrip
import ShopTables.Proofs.KeyList

/-!
# Written objects are read as forms and as maps

```
    fields   --outlineOf-->   members   --Form.read?-->   one outline for each known name
                                        --Form.map?-->    the map of what each member means
```

An object that was written has for each known name the outline of its field, wherever the field
stands (`Form.read?_outlineOf`). As a map, it has what its fields are read as
(`Form.map?_outlineOf`).
-/

namespace ShopTables.Json

theorem canonicalFields_eq (fields : List (String × Json)) :
    canonicalFields fields = fields.map fun f => (f.1, canonical f.2) := by
  induction fields with
  | nil => rw [canonicalFields, List.map_nil]
  | cons f fields ih =>
    obtain ⟨k, v⟩ := f
    rw [canonicalFields, ih, List.map_cons]

theorem readableFields_iff {d : Nat} {fields : List (String × Json)} :
    ReadableFields d fields ↔ ∀ f ∈ fields, Readable d f.2 := by
  induction fields with
  | nil => simp [ReadableFields]
  | cons f fields ih =>
    obtain ⟨k, v⟩ := f
    rw [ReadableFields, ih, List.forall_mem_cons]

/-! ### Objects of texts -/

theorem readable_texts (d : Nat) (texts : KeyList String) :
    Readable (d + 1) (.object (texts.map fun (name, text) => (name, .string text))) := by
  refine readableFields_iff.mpr fun f hf => ?_
  obtain ⟨_, -, rfl⟩ := List.mem_map.mp hf
  exact trivial

/-- Texts in key order are read back as they stand. -/
theorem canonical_texts {texts : KeyList String} (h : KeyList.Sorted texts) :
    canonical (.object (texts.map fun (name, text) => (name, .string text)))
      = .object (texts.map fun (name, text) => (name, .string text)) := by
  have hsorted : KeyList.Sorted
      (texts.map fun (name, text) => (name, Json.string text) : KeyList Json) :=
    List.pairwise_map.mpr h
  have hsame : canonicalFields (texts.map fun (name, text) => (name, .string text))
      = texts.map fun (name, text) => (name, .string text) := by
    rw [canonicalFields_eq, List.map_map]
    refine List.map_congr_left fun p _ => ?_
    rw [Function.comp_apply, canonical]
  rw [canonical, hsame, ofFields, KeyList.ofList_eq_self hsorted]

theorem read?_texts {texts : KeyList String} (h : KeyList.Sorted texts) :
    read? (object (texts.map fun (name, text) => (name, .string text))).bytes
      = some (.object (texts.map fun (name, text) => (name, .string text))) := by
  rw [read?_bytes (readable_texts 126 texts), canonical_texts h]

/-! ### Nulls -/

/-- Only null is written as null, unless there are floats. -/
theorem outlineOf_ne_null {d : Nat} {v : Json} (hv : Readable d v) (hnull : v ≠ .null) :
    outlineOf v ≠ .null := by
  cases v with
  | null => exact absurd rfl hnull
  | number n =>
    cases n with
    | integer i => exact Outline.noConfusion
    | float x =>
      rw [Readable] at hv
      exact hv.elim
  | bool b => exact Outline.noConfusion
  | string s => exact Outline.noConfusion
  | array items => exact Outline.noConfusion
  | object fields => exact Outline.noConfusion

/-- Only null means null. -/
theorem ne_null_of_ofOutline? {d : Nat} {o : Outline} {v : Json} (h : ofOutline? d o = some v)
    (hnull : o ≠ .null) : v ≠ .null := by
  rintro rfl
  unfold ofOutline? at h
  cases o with
  | null => exact hnull rfl
  | bool b => cases h
  | number l =>
    obtain ⟨_, -, h⟩ := Option.map_eq_some_iff.mp h
    cases h
  | string ps =>
    obtain ⟨_, -, h⟩ := Option.map_eq_some_iff.mp h
    cases h
  | array items =>
    cases d with
    | zero => cases h
    | succ d =>
      obtain ⟨_, -, h⟩ := Option.map_eq_some_iff.mp h
      cases h
  | object members =>
    cases d with
    | zero => cases h
    | succ d =>
      obtain ⟨_, -, h⟩ := Option.map_eq_some_iff.mp h
      cases h

namespace Form

variable {names : List String}

/-- A field is put at the place of its name, if there is none there. -/
theorem place?_map (hnames : names.Nodup) {at? : String → Option Outline} {key : String}
    (o : Outline) (hkey : at? key = none) :
    place? key o names (names.map at?)
      = some (names.map fun n => if n = key then some o else at? n) := by
  induction names with
  | nil => rfl
  | cons n ns ih =>
    obtain ⟨hn, hns⟩ := List.nodup_cons.mp hnames
    rw [List.map_cons, List.map_cons, place?]
    by_cases heq : n = key
    · -- no other place has this name
      have hrest : ns.map at? = ns.map fun m => if m = key then some o else at? m :=
        List.map_congr_left fun m hm =>
          (if_neg fun (h : m = key) => hn (heq.trans h.symm ▸ hm)).symm
      rw [if_pos heq, if_pos heq, heq, hkey, hrest]
      rfl
    · rw [if_neg heq, if_neg heq, ih hns, Option.map_some]

/-- Fields with different names are put at the places of their names. -/
theorem ofMembers?_membersOf (hnames : names.Nodup) {fields : List (String × Json)}
    (hfields : (fields.map (·.1)).Nodup) {at? : String → Option Outline}
    (hfree : ∀ f ∈ fields, at? f.1 = none) :
    ofMembers? names (membersOf fields) (names.map at?)
      = some (names.map fun n => ((KeyList.get? fields n).map outlineOf).or (at? n)) := by
  induction fields generalizing at? with
  | nil => rfl
  | cons f fields ih =>
    obtain ⟨k, v⟩ := f
    obtain ⟨hk, hfields⟩ := List.nodup_cons.mp hfields
    have hrest : ∀ f ∈ fields, (if f.1 = k then some (outlineOf v) else at? f.1) = none := by
      intro f hf
      have hne : f.1 ≠ k := fun h => hk (List.mem_map.mpr ⟨f, hf, h⟩)
      rw [if_neg hne, hfree f (List.mem_cons_of_mem _ hf)]
    rw [membersOf, ofMembers?, stringOf?_pieceOf]
    dsimp only
    rw [place?_map hnames _ (hfree _ List.mem_cons_self), Option.bind_some, ih hfields hrest]
    refine congrArg some (List.map_congr_left fun n _ => ?_)
    rw [KeyList.get?_cons]
    by_cases heq : n = k
    · have hnone : KeyList.get? fields n = none := KeyList.get?_eq_none_iff.mpr (heq ▸ hk)
      rw [if_pos heq, if_pos heq.symm, hnone]
      rfl
    · rw [if_neg heq, if_neg (Ne.symm heq)]

/-- An object that was written has for each name the outline of its field. -/
theorem read?_outlineOf (hnames : names.Nodup) {fields : List (String × Json)}
    (hfields : (fields.map (·.1)).Nodup) :
    read? names (outlineOf (.object fields))
      = some (names.map fun n => (KeyList.get? fields n).map outlineOf) := by
  have hslots : List.replicate names.length none = names.map fun _ => (none : Option Outline) :=
    List.map_const'.symm
  rw [outlineOf, read?, hslots, ofMembers?_membersOf hnames hfields fun _ _ => rfl]
  simp only [Option.or_none]

theorem string?_outlineOf (default : Option String) (s : String) :
    string? default (some (outlineOf (.string s))) = some s := by
  rw [outlineOf, string?, stringOf?_pieceOf]

theorem optionalString?_map (s : Option String) :
    optionalString? (s.map fun s => outlineOf (.string s)) = some s := by
  cases s with
  | none => rfl
  | some s =>
    rw [Option.map_some, outlineOf, optionalString?, stringOf?_pieceOf]
    rfl

theorem optionalInt?_ofInt {low high i : Int} (hlow : low ≤ i) (hhigh : i ≤ high)
    (hleast : -9223372036854775808 ≤ i) (hmost : i < 18446744073709551616) :
    optionalInt? low high (some (outlineOf (ofInt i))) = some (some i) := by
  rw [ofInt, outlineOf, optionalInt?, number?_literalOf hleast hmost]
  dsimp only
  rw [if_pos ⟨hlow, hhigh⟩]

/-- A map that is read is in key order, and each of its values was read. -/
theorem sorted_of_map? {α : Type} {f : Outline → Option α} {o : Outline} {m : KeyList α}
    (h : map? f o = some m) : KeyList.Sorted m ∧ ∀ p ∈ m, ∃ o, f o = some p.2 := by
  unfold map? at h
  split at h
  · obtain ⟨pairs, hpairs, rfl⟩ := Option.map_eq_some_iff.mp h
    refine ⟨KeyList.sorted_ofList pairs, fun p hp => ?_⟩
    obtain ⟨member, -, hmember⟩ := exists_of_mem_of_forall₂ (forall₂_of_mapM_some hpairs)
      (KeyList.ofList_subset pairs hp)
    simp only [Option.bind_eq_bind, Option.bind_eq_some_iff, Option.pure_def,
      Option.some.injEq] at hmember
    obtain ⟨_, -, _, hvalue, rfl⟩ := hmember
    exact ⟨_, hvalue⟩
  · cases h

/-- A map that was written has what its values are read as. -/
theorem map?_outlineOf {α γ : Type} {f : Outline → Option α} {write : γ → Json} {back : γ → α}
    {pairs : List (String × γ)} (h : ∀ p ∈ pairs, f (outlineOf (write p.2)) = some (back p.2)) :
    map? f (outlineOf (.object (pairs.map fun p => (p.1, write p.2))))
      = some (KeyList.ofList (pairs.map fun p => (p.1, back p.2))) := by
  have hmembers : (membersOf (pairs.map fun p => (p.1, write p.2))).mapM
      (fun (key, o) => do return (← stringOf? key, ← f o))
        = some (pairs.map fun p => (p.1, back p.2)) := by
    induction pairs with
    | nil => rfl
    | cons p pairs ih =>
      rw [List.map_cons, membersOf, List.mapM_cons, ih fun q hq => h q (List.mem_cons_of_mem _ hq)]
      dsimp only
      rw [stringOf?_pieceOf, h p List.mem_cons_self]
      rfl
  rw [outlineOf, map?, hmembers, Option.map_some]

end Form

end ShopTables.Json
