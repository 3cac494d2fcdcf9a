import ShopTables.Proofs.Json.RoundTrip
import ShopTables.Proofs.KeyList

/-!
# Values that were read

```
    bytes  --read?-->  v  --bytes-->  text of v  --read?-->  v
```

Reading gives only values with 64-bit integers, with the fields of every object in key order, and
not too deep (`sound_of_read?`). Such a value is written and read back as it is, unless there is a
float in it (`read?_bytes_of_sound`): the digits of a float are not always read as the float they
were written for.
-/

namespace ShopTables.Json

mutual

/-- The values that can be read at a depth: integers have 64 bits, with or without sign, the fields
of objects stand in key order, and arrays and objects nest at most `depth` deep. -/
def Sound : Nat → Json → Prop
  | _, .null => True
  | _, .bool _ => True
  | _, .number (.integer i) => -9223372036854775808 ≤ i ∧ i < 18446744073709551616
  | _, .number (.float _) => True
  | _, .string _ => True
  | 0, .array _ => False
  | d + 1, .array items => SoundItems d items
  | 0, .object _ => False
  | d + 1, .object fields => KeyList.Sorted fields ∧ SoundFields d fields

/-- Are all items sound? -/
def SoundItems : Nat → List Json → Prop
  | _, [] => True
  | d, v :: vs => Sound d v ∧ SoundItems d vs

/-- Are the values of all fields sound? -/
def SoundFields : Nat → List (String × Json) → Prop
  | _, [] => True
  | d, (_, v) :: fs => Sound d v ∧ SoundFields d fs

end

mutual

/-- Is there no float in the value? -/
def WithoutFloats : Json → Prop
  | .null => True
  | .bool _ => True
  | .number (.integer _) => True
  | .number (.float _) => False
  | .string _ => True
  | .array items => ItemsWithoutFloats items
  | .object fields => FieldsWithoutFloats fields

/-- Is there no float in the items? -/
def ItemsWithoutFloats : List Json → Prop
  | [] => True
  | v :: vs => WithoutFloats v ∧ ItemsWithoutFloats vs

/-- Is there no float in the values of the fields? -/
def FieldsWithoutFloats : List (String × Json) → Prop
  | [] => True
  | (_, v) :: fs => WithoutFloats v ∧ FieldsWithoutFloats fs

end

theorem soundFields_iff {d : Nat} {fields : List (String × Json)} :
    SoundFields d fields ↔ ∀ f ∈ fields, Sound d f.2 := by
  induction fields with
  | nil => simp [SoundFields]
  | cons f fields ih =>
    obtain ⟨k, v⟩ := f
    rw [SoundFields, ih, List.forall_mem_cons]

theorem soundFields_ofList {d : Nat} {fields : List (String × Json)} (h : SoundFields d fields) :
    SoundFields d (KeyList.ofList fields) :=
  soundFields_iff.mpr fun f hf => soundFields_iff.mp h f (KeyList.ofList_subset fields hf)

/-! ### Reading gives sound values -/

theorem takeDigits_lt (ds : List Char) {n : Nat} (h : n < wordLimit) :
    (takeDigits n ds).1 < wordLimit := by
  induction ds generalizing n with
  | nil => exact h
  | cons d ds ih =>
    rw [takeDigits]
    split_ifs with hnext
    · exact ih hnext
    · exact h

/-- The integers among the numbers that are read have 64 bits. -/
theorem sound_of_number? {l : Literal} {n : Number} (d : Nat) (h : l.number? = some n) :
    Sound d (.number n) := by
  have hfits : (takeDigits 0 l.whole).1 < wordLimit := takeDigits_lt l.whole (by decide)
  cases n with
  | float x => trivial
  | integer i =>
    unfold wordLimit at hfits
    rw [Sound]
    rw [Literal.number?] at h
    dsimp only at h
    split_ifs at h with hplain hnegative hrange
    · obtain rfl := Number.integer.inj (Option.some.inj h)
      omega
    · cases h
    · obtain rfl := Number.integer.inj (Option.some.inj h)
      omega
    · obtain ⟨x, -, hx⟩ := Option.map_eq_some_iff.mp h
      cases hx

mutual

/-- What an outline means is sound. -/
theorem sound_of_ofOutline? : ∀ (d : Nat) (o : Outline) (v : Json), ofOutline? d o = some v →
    Sound d v
  | _, .null, _, h => by
    obtain rfl := Option.some.inj h
    trivial
  | _, .bool _, _, h => by
    obtain rfl := Option.some.inj h
    trivial
  | d, .number l, v, h => by
    rw [ofOutline?] at h
    obtain ⟨n, hn, rfl⟩ := Option.map_eq_some_iff.mp h
    exact sound_of_number? d hn
  | _, .string ps, _, h => by
    rw [ofOutline?] at h
    obtain ⟨s, -, rfl⟩ := Option.map_eq_some_iff.mp h
    trivial
  | 0, .array items, _, h => by
    rw [ofOutline?] at h
    cases h
  | d + 1, .array items, v, h => by
    rw [ofOutline?] at h
    obtain ⟨vs, hvs, rfl⟩ := Option.map_eq_some_iff.mp h
    rw [Sound]
    exact soundItems_of_ofOutlines? d items vs hvs
  | 0, .object members, _, h => by
    rw [ofOutline?] at h
    cases h
  | d + 1, .object members, v, h => by
    rw [ofOutline?] at h
    obtain ⟨fs, hfs, rfl⟩ := Option.map_eq_some_iff.mp h
    rw [ofFields, Sound]
    exact ⟨KeyList.sorted_ofList fs, soundFields_ofList (soundFields_of_ofMembers? d members fs hfs)⟩

/-- What the outlines of items mean is sound. -/
theorem soundItems_of_ofOutlines? : ∀ (d : Nat) (os : List Outline) (vs : List Json),
    ofOutlines? d os = some vs → SoundItems d vs
  | _, [], _, h => by
    obtain rfl := Option.some.inj h
    trivial
  | d, o :: os, vs, h => by
    rw [ofOutlines?] at h
    split at h
    · rename_i w ws hw hws
      obtain rfl := Option.some.inj h
      exact ⟨sound_of_ofOutline? d o w hw, soundItems_of_ofOutlines? d os ws hws⟩
    · cases h

/-- What the outlines of members mean is sound. -/
theorem soundFields_of_ofMembers? : ∀ (d : Nat) (ms : List (List Piece × Outline))
    (fs : List (String × Json)), ofMembers? d ms = some fs → SoundFields d fs
  | _, [], _, h => by
    obtain rfl := Option.some.inj h
    trivial
  | d, (key, o) :: ms, fs, h => by
    rw [ofMembers?] at h
    split at h
    · rename_i k w gs _ hw hgs
      obtain rfl := Option.some.inj h
      exact ⟨sound_of_ofOutline? d o w hw, soundFields_of_ofMembers? d ms gs hgs⟩
    · cases h

end

/-- What is read is sound. -/
theorem sound_of_read? {bytes : List UInt8} {v : Json} (h : read? bytes = some v) :
    Sound maxDepth v := by
  obtain ⟨o, -, ho⟩ := Option.bind_eq_some_iff.mp h
  exact sound_of_ofOutline? maxDepth o v ho

/-! ### Sound values are read back -/

mutual

/-- The fields of the objects in a sound value stand in key order already. -/
theorem canonical_of_sound : ∀ (d : Nat) (v : Json), Sound d v → canonical v = v
  | _, .null, _ => by rw [canonical]
  | _, .bool b, _ => by rw [canonical]
  | _, .number n, _ => by rw [canonical]
  | _, .string s, _ => by rw [canonical]
  | 0, .array items, h => by
    rw [Sound] at h
    exact h.elim
  | d + 1, .array items, h => by
    rw [Sound] at h
    rw [canonical, canonicalItems_of_sound d items h]
  | 0, .object fields, h => by
    rw [Sound] at h
    exact h.elim
  | d + 1, .object fields, h => by
    rw [Sound] at h
    rw [canonical, canonicalFields_of_sound d fields h.2, ofFields, KeyList.ofList_eq_self h.1]

theorem canonicalItems_of_sound : ∀ (d : Nat) (vs : List Json), SoundItems d vs →
    canonicalItems vs = vs
  | _, [], _ => by rw [canonicalItems]
  | d, v :: vs, h => by
    rw [SoundItems] at h
    rw [canonicalItems, canonical_of_sound d v h.1, canonicalItems_of_sound d vs h.2]

theorem canonicalFields_of_sound : ∀ (d : Nat) (fs : List (String × Json)), SoundFields d fs →
    canonicalFields fs = fs
  | _, [], _ => by rw [canonicalFields]
  | d, (k, v) :: fs, h => by
    rw [SoundFields] at h
    rw [canonicalFields, canonical_of_sound d v h.1, canonicalFields_of_sound d fs h.2]

end

mutual

/-- A sound value without floats can be written, also at a place that is not as deep. -/
theorem readable_of_sound : ∀ (d d' : Nat) (v : Json), d ≤ d' → Sound d v → WithoutFloats v →
    Readable d' v
  | _, _, .null, _, _, _ => by
    rw [Readable]
    trivial
  | _, _, .bool b, _, _, _ => by
    rw [Readable]
    trivial
  | _, _, .number (.integer i), _, h, _ => by
    rw [Sound] at h
    rw [Readable]
    exact h
  | _, _, .number (.float x), _, _, hfloats => by
    rw [WithoutFloats] at hfloats
    exact hfloats.elim
  | _, _, .string s, _, _, _ => by
    rw [Readable]
    trivial
  | 0, _, .array items, _, h, _ => by
    rw [Sound] at h
    exact h.elim
  | d + 1, 0, .array items, hle, _, _ => absurd hle (Nat.not_succ_le_zero d)
  | d + 1, d' + 1, .array items, hle, h, hfloats => by
    rw [Sound] at h
    rw [WithoutFloats] at hfloats
    rw [Readable]
    exact readableItems_of_sound d d' items (Nat.le_of_succ_le_succ hle) h hfloats
  | 0, _, .object fields, _, h, _ => by
    rw [Sound] at h
    exact h.elim
  | d + 1, 0, .object fields, hle, _, _ => absurd hle (Nat.not_succ_le_zero d)
  | d + 1, d' + 1, .object fields, hle, h, hfloats => by
    rw [Sound] at h
    rw [WithoutFloats] at hfloats
    rw [Readable]
    exact readableFields_of_sound d d' fields (Nat.le_of_succ_le_succ hle) h.2 hfloats

theorem readableItems_of_sound : ∀ (d d' : Nat) (vs : List Json), d ≤ d' → SoundItems d vs →
    ItemsWithoutFloats vs → ReadableItems d' vs
  | _, _, [], _, _, _ => by
    rw [ReadableItems]
    trivial
  | d, d', v :: vs, hle, h, hfloats => by
    rw [SoundItems] at h
    rw [ItemsWithoutFloats] at hfloats
    rw [ReadableItems]
    exact ⟨readable_of_sound d d' v hle h.1 hfloats.1,
      readableItems_of_sound d d' vs hle h.2 hfloats.2⟩

theorem readableFields_of_sound : ∀ (d d' : Nat) (fs : List (String × Json)), d ≤ d' →
    SoundFields d fs → FieldsWithoutFloats fs → ReadableFields d' fs
  | _, _, [], _, _, _ => by
    rw [ReadableFields]
    trivial
  | d, d', (k, v) :: fs, hle, h, hfloats => by
    rw [SoundFields] at h
    rw [FieldsWithoutFloats] at hfloats
    rw [ReadableFields]
    exact ⟨readable_of_sound d d' v hle h.1 hfloats.1,
      readableFields_of_sound d d' fs hle h.2 hfloats.2⟩

end

/-- A sound value without floats that is written is read back as it was. -/
theorem read?_bytes_of_sound {d : Nat} {v : Json} (hd : d ≤ maxDepth) (h : Sound d v)
    (hfloats : WithoutFloats v) : read? v.bytes = some v := by
  rw [read?_bytes (readable_of_sound d maxDepth v hd h hfloats), canonical_of_sound d v h]

end ShopTables.Json
