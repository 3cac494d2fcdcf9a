import Mathlib.Data.List.Induction
import ShopTables.Proofs.Json.RoundTrip
import ShopTables.Proofs.Schema.Definition
import ShopTables.Proofs.Schema.Record
import ShopTables.Proofs.Text.ByteOrder

/-!
# Which records have a row

```
    record    a: …   id: …   name: …   z: …           a and z name no column
    columns          id      name      price          price has no field
    row              id: …   name: …   null
```

A record has a row exactly if each of its fields that names a column can be converted; the row is
then made column by column, and if it is not, the first such field in key order says why
(`rowOf_eq_ok_iff`, `rowOf_eq_error_iff`). So fields that name no column never matter
(`rowOf_congr`), and neither does how a text lists the fields, as long as each name ends up with
the same value (`TableDefinition.rowOf_column_by_column`).
-/

namespace ShopTables

/-- If it does not depend on the state whether a step fails, a fold fails as the values do. -/
theorem foldlM_eq_error_iff {ε α β γ : Type} {f : β → α → Except ε β} {check : α → Except ε γ}
    (hcheck : ∀ b a e, f b a = .error e ↔ check a = .error e) {as : List α} {b : β} {e : ε} :
    as.foldlM f b = .error e ↔ as.mapM check = .error e := by
  induction as generalizing b with
  | nil => exact ⟨nofun, nofun⟩
  | cons a as ih =>
    rw [List.foldlM_cons, List.mapM_cons]
    cases hstep : f b a with
    | error e' =>
      rw [(hcheck b a e').mp hstep]
      exact ⟨fun h => by rw [Except.error.inj h]; rfl, fun h => by rw [Except.error.inj h]; rfl⟩
    | ok b' =>
      cases ha : check a with
      | error e' =>
        rw [(hcheck b a e').mpr ha] at hstep
        cases hstep
      | ok c =>
        refine ih.trans ?_
        show as.mapM check = .error e ↔ (as.mapM check >>= fun cs => pure (c :: cs)) = .error e
        cases as.mapM check with
        | error e' => exact ⟨fun h => by rw [Except.error.inj h]; rfl, id⟩
        | ok cs => exact ⟨nofun, nofun⟩

namespace KeyList

variable {β : Type u}

/-- In a map, the pairs before one are those with lesser names. -/
theorem Sorted.exists_split_iff {m : KeyList β} (h : Sorted m) {passes here : String × β → Prop} :
    (∃ before p after, m = before ++ p :: after ∧ (∀ q ∈ before, passes q) ∧ here p)
      ↔ ∃ p ∈ m, (∀ q ∈ m, q.1 < p.1 → passes q) ∧ here p := by
  constructor
  · rintro ⟨before, p, after, rfl, hbefore, hp⟩
    refine ⟨p, List.mem_append_right _ List.mem_cons_self, fun q hq hlt => ?_, hp⟩
    rcases List.mem_append.mp hq with hq | hq
    · exact hbefore q hq
    · -- the pairs from `p` on have no lesser name
      obtain ⟨hafter, -⟩ := List.pairwise_cons.mp (List.pairwise_append.mp h).2.1
      rcases List.mem_cons.mp hq with rfl | hq
      · exact absurd hlt (lt_irrefl _)
      · exact absurd (hafter q hq) (lt_asymm hlt)
  · rintro ⟨p, hmem, hbefore, hp⟩
    obtain ⟨before, after, rfl⟩ := List.append_of_mem hmem
    refine ⟨before, p, after, rfl, fun q hq => ?_, hp⟩
    exact hbefore q (List.mem_append_left _ hq)
      ((List.pairwise_append.mp h).2.2 q hq p List.mem_cons_self)

theorem get?_insert (key : String) (value : β) (m : KeyList β) (k : String) :
    get? (insert key value m) k = if key = k then some value else get? m k := by
  induction m with
  | nil => exact get?_cons (key, value) [] k
  | cons p m ih =>
    rw [insert]
    by_cases hlt : key < p.1
    · rw [if_pos hlt]
      exact get?_cons (key, value) (p :: m) k
    · rw [if_neg hlt]
      by_cases heq : key = p.1
      · -- a pair of the same name is replaced
        rw [if_pos heq, get?_cons, get?_cons, ← heq]
        split_ifs <;> rfl
      · rw [if_neg heq, get?_cons, ih, get?_cons]
        by_cases hp : p.1 = k
        · rw [if_pos hp, if_pos hp, if_neg (hp ▸ heq)]
        · rw [if_neg hp, if_neg hp]

/-- A map has for each name the last value that came with it. -/
theorem get?_ofList (pairs : List (String × β)) (key : String) :
    (ofList pairs).get? key = get? pairs.reverse key := by
  induction pairs using List.reverseRecOn with
  | nil => rfl
  | append_singleton pairs p ih =>
    have hlast : ofList (pairs ++ [p]) = insert p.1 p.2 (ofList pairs) := by
      rw [ofList, List.foldl_append]
      rfl
    rw [hlast, get?_insert, ih, List.reverse_append]
    exact (get?_cons p pairs.reverse key).symm

end KeyList

/-- A record's field for a column, if it has one, can be converted. -/
def Column.Converts (c : Column) (record : KeyList Json) : Prop :=
  ∀ v, record.get? c.name = some v → ∃ value, c.convert v = .ok value

namespace TableDefinition

variable {d : TableDefinition} {record : KeyList Json}

/-! ### Rows -/

theorem place_eq_error_iff (hnames : (d.columns.map (·.name)).Nodup) {row : Row}
    {field : String × Json} {m : Mismatch} :
    d.place row field = .error m
      ↔ ∃ c ∈ d.columns, c.name = field.1 ∧ c.convert field.2 = .error m := by
  rw [place]
  cases hindex : d.indexOf field.1 with
  | none =>
    constructor
    · intro h
      cases h
    · rintro ⟨c, hc, hname, -⟩
      exact absurd hname (indexOf_eq_none hindex c hc)
  | some i =>
    obtain ⟨c, hc, hname⟩ := indexOf_eq_some hindex
    have hmem : c ∈ d.columns := List.mem_of_getElem? hc
    -- the names differ, so `c` is the only column of this name
    have honly : ∀ c' ∈ d.columns, c'.name = field.1 → c' = c := fun c' hc' hname' =>
      List.inj_on_of_nodup_map hnames hc' hmem (hname'.trans hname.symm)
    simp only [hc]
    cases hconvert : c.convert field.2 with
    | ok cell =>
      constructor
      · intro h
        cases h
      · rintro ⟨c', hc', hname', hfails⟩
        rw [honly c' hc' hname', hconvert] at hfails
        cases hfails
    | error m' =>
      constructor
      · intro h
        obtain rfl := Except.error.inj h
        exact ⟨c, hmem, hname, hconvert⟩
      · rintro ⟨c', hc', hname', hfails⟩
        rw [honly c' hc' hname', hconvert] at hfails
        rw [Except.error.inj hfails]
        rfl

/-- The row of a record is what the columns make of their fields. -/
theorem rowOf_eq_ok_iff (hnames : (d.columns.map (·.name)).Nodup)
    (hkeys : (KeyList.keys record).Nodup) {row : Row} :
    d.rowOf record = .ok row
      ↔ d.columns.mapM (fun c => c.convert (c.fieldOf record)) = .ok row := by
  have hmapM : (∀ c ∈ d.columns, ∃ value, c.convert (c.fieldOf record) = .ok value) →
      ∃ values, d.rowOf record = .ok values
        ∧ d.columns.mapM (fun c => c.convert (c.fieldOf record)) = .ok values := by
    intro hall
    have : Nonempty Value := ⟨.null⟩
    choose! cell hcell using hall
    refine ⟨d.columns.map cell, rowOf_eq hnames hkeys hcell, mapM_ok_of_forall₂ ?_⟩
    exact List.forall₂_map_right_iff.mpr (List.forall₂_same.mpr hcell)
  constructor
  · intro h
    obtain ⟨values, hrow, hvalues⟩ := hmapM fun c hc => exists_convert_of_rowOf hnames h hc
    rw [hvalues, ← hrow, h]
  · intro h
    obtain ⟨values, hrow, hvalues⟩ := hmapM fun c hc => by
      obtain ⟨value, -, hvalue⟩ := exists_of_mem_of_forall₂ (forall₂_of_mapM_ok h).flip hc
      exact ⟨value, hvalue⟩
    rw [hrow, ← hvalues, h]

theorem exists_place_ok_iff (hnames : (d.columns.map (·.name)).Nodup) {row : Row}
    {field : String × Json} :
    (∃ row', d.place row field = .ok row')
      ↔ ∀ c ∈ d.columns, c.name = field.1 → ∃ value, c.convert field.2 = .ok value := by
  constructor
  · rintro ⟨row', hplace⟩ c hc hname
    cases hconvert : c.convert field.2 with
    | ok value => exact ⟨value, rfl⟩
    | error m =>
      rw [(place_eq_error_iff hnames).mpr ⟨c, hc, hname, hconvert⟩] at hplace
      cases hplace
  · intro hall
    cases hplace : d.place row field with
    | ok row' => exact ⟨row', rfl⟩
    | error m =>
      obtain ⟨c, hc, hname, hfails⟩ := (place_eq_error_iff hnames).mp hplace
      obtain ⟨value, hvalue⟩ := hall c hc hname
      rw [hvalue] at hfails
      cases hfails

/-- A record has no row because of the first field, in key order, that cannot be converted. -/
theorem rowOf_eq_error_iff (hnames : (d.columns.map (·.name)).Nodup)
    (hsorted : KeyList.Sorted record) {m : Mismatch} :
    d.rowOf record = .error m
      ↔ ∃ c ∈ d.columns, ∃ v, record.get? c.name = some v ∧ c.convert v = .error m
          ∧ ∀ c' ∈ d.columns, c'.name < c.name → c'.Converts record := by
  have hget : ∀ {name v}, (name, v) ∈ record ↔ record.get? name = some v :=
    ⟨KeyList.get?_of_mem hsorted.nodup_keys, KeyList.mem_of_get?⟩
  have hcheck (row : Row) (field : String × Json) (m' : Mismatch) :
      d.place row field = .error m' ↔ d.place [] field = .error m' := by
    rw [place_eq_error_iff hnames, place_eq_error_iff hnames]
  rw [rowOf, foldlM_eq_error_iff hcheck, mapM_eq_error_iff, hsorted.exists_split_iff]
  constructor
  · rintro ⟨⟨name, v⟩, hfield, hbefore, hfails⟩
    obtain ⟨c, hc, rfl, hconvert⟩ := (place_eq_error_iff hnames).mp hfails
    refine ⟨c, hc, v, hget.mp hfield, hconvert, fun c' hc' hlt v' hv' => ?_⟩
    exact (exists_place_ok_iff hnames).mp (hbefore (c'.name, v') (hget.mpr hv') hlt) c' hc' rfl
  · rintro ⟨c, hc, v, hv, hconvert, hbefore⟩
    refine ⟨(c.name, v), hget.mpr hv, ?_, (place_eq_error_iff hnames).mpr ⟨c, hc, rfl, hconvert⟩⟩
    rintro ⟨name, v'⟩ hfield hlt
    refine (exists_place_ok_iff hnames).mpr ?_
    rintro c' hc' rfl
    exact hbefore c' hc' hlt v' (hget.mp hfield)

theorem exists_rowOf_iff (hnames : (d.columns.map (·.name)).Nodup)
    (hkeys : (KeyList.keys record).Nodup) :
    (∃ row, d.rowOf record = .ok row) ↔ ∀ c ∈ d.columns, c.Converts record := by
  constructor
  · rintro ⟨row, hrow⟩ c hc v hv
    obtain ⟨value, hvalue⟩ := exists_convert_of_rowOf hnames hrow hc
    rw [Column.fieldOf, hv, Option.getD_some] at hvalue
    exact ⟨value, hvalue⟩
  · intro hall
    have hconverts : ∀ c ∈ d.columns, ∃ value, c.convert (c.fieldOf record) = .ok value := by
      intro c hc
      rw [Column.fieldOf]
      cases hfield : record.get? c.name with
      | none => exact ⟨.null, rfl⟩
      | some v => exact hall c hc v hfield
    obtain ⟨row, hrow⟩ := exists_mapM_ok hconverts
    exact ⟨row, (rowOf_eq_ok_iff hnames hkeys).mpr hrow⟩

/-- Only what a record has for the columns matters. -/
theorem rowOf_congr {record' : KeyList Json} (hnames : (d.columns.map (·.name)).Nodup)
    (hsorted : KeyList.Sorted record) (hsorted' : KeyList.Sorted record')
    (h : ∀ c ∈ d.columns, record.get? c.name = record'.get? c.name) :
    d.rowOf record = d.rowOf record' := by
  cases hrow : d.rowOf record with
  | ok row =>
    have hcells := forall₂_of_mapM_ok ((rowOf_eq_ok_iff hnames hsorted.nodup_keys).mp hrow)
    refine ((rowOf_eq_ok_iff hnames hsorted'.nodup_keys).mpr (mapM_ok_of_forall₂ ?_)).symm
    refine forall₂_imp_of_mem hcells fun c hc value hvalue => ?_
    rwa [Column.fieldOf, ← h c hc]
  | error m =>
    obtain ⟨c, hc, v, hv, hconvert, hbefore⟩ := (rowOf_eq_error_iff hnames hsorted).mp hrow
    refine ((rowOf_eq_error_iff hnames hsorted').mpr ⟨c, hc, v, h c hc ▸ hv, hconvert, ?_⟩).symm
    intro c' hc' hlt v' hv'
    exact hbefore c' hc' hlt v' ((h c' hc').trans hv')

end TableDefinition

/-! ### Texts of records -/

namespace Json

/-- The fields of an object as its text lists them, with every value a name is given. -/
def listedFields? (bytes : List UInt8) : Option (List (String × Json)) :=
  match Outline.read? bytes with
  | some (.object members) => ofMembers? (maxDepth - 1) members
  | _ => none

/-- The text of an object is read as the map of the fields it lists. -/
theorem read?_of_listedFields? {bytes : List UInt8} {fields : List (String × Json)}
    (h : listedFields? bytes = some fields) :
    read? bytes = some (.object (KeyList.ofList fields)) := by
  unfold listedFields? at h
  split at h
  · rename_i members houtline
    rw [read?, houtline, Option.bind_some, maxDepth, ofOutline?]
    show (ofMembers? (maxDepth - 1) members).map ofFields = _
    rw [h]
    rfl
  · cases h

theorem listedFields?_bytes (fields : List (String × Json))
    (h : ReadableFields (maxDepth - 1) fields) :
    listedFields? (Json.object fields).bytes = some (canonicalFields fields) := by
  have hreadable : Readable maxDepth (.object fields) := h
  rw [listedFields?, outlineRead?_bytes hreadable, outlineOf]
  exact ofMembers?_membersOf _ _ h

end Json

namespace TableDefinition

/-- The rows of an entity's records are made column by column. A record has a row exactly if each
field that names a column can be converted; the row has a cell for each column, made of the field
of its name, and null if there is none; and if there is no row, this is because of the first field,
in the order of the bytes of the names, that names a column and cannot be converted. What names no
column never matters, nor does the order in which the text of a record lists its fields or what it
said of a name before. -/
theorem rowOf_column_by_column (registered name : String) (properties : List (String × Property))
    (mapping : Bool) :
    let d := ofEntity registered ⟨name, KeyList.ofList properties⟩ mapping
    (∀ fields : List (String × Json),
      let record := KeyList.ofList fields
      ((∃ row, d.rowOf record = .ok row) ↔ ∀ c ∈ d.columns, c.Converts record)
      ∧ (∀ row, d.rowOf record = .ok row → row.length = d.columns.length
          ∧ ∀ (i : Nat) (c : Column), d.columns[i]? = some c →
              (∀ v, record.get? c.name = some v →
                ∃ value, c.convert v = .ok value ∧ row[i]? = some value)
              ∧ (record.get? c.name = none → row[i]? = some .null))
      ∧ (∀ m, d.rowOf record = .error m
          ↔ ∃ c ∈ d.columns, ∃ v, record.get? c.name = some v ∧ c.convert v = .error m
              ∧ ∀ c' ∈ d.columns, Text.Utf8.ofString c'.name < Text.Utf8.ofString c.name →
                  c'.Converts record))
    ∧ (∀ fields fields' : List (String × Json),
        (∀ c ∈ d.columns,
          KeyList.get? fields.reverse c.name = KeyList.get? fields'.reverse c.name) →
        d.rowOf (KeyList.ofList fields) = d.rowOf (KeyList.ofList fields'))
    ∧ (∀ bytes bytes' fields fields', Json.listedFields? bytes = some fields →
        Json.listedFields? bytes' = some fields' →
        (∀ c ∈ d.columns,
          KeyList.get? fields.reverse c.name = KeyList.get? fields'.reverse c.name) →
        ∃ record record', Json.read? bytes = some (.object record)
          ∧ Json.read? bytes' = some (.object record') ∧ d.rowOf record = d.rowOf record') := by
  intro d
  have hnames : (d.columns.map (·.name)).Nodup :=
    nodup_names registered mapping (KeyList.sorted_ofList properties).nodup_keys
  have hsame (fields fields' : List (String × Json))
      (h : ∀ c ∈ d.columns,
        KeyList.get? fields.reverse c.name = KeyList.get? fields'.reverse c.name) :
      d.rowOf (KeyList.ofList fields) = d.rowOf (KeyList.ofList fields') := by
    refine rowOf_congr hnames (KeyList.sorted_ofList _) (KeyList.sorted_ofList _) fun c hc => ?_
    rw [KeyList.get?_ofList, KeyList.get?_ofList, h c hc]
  refine ⟨fun fields => ?_, hsame, ?_⟩
  · intro record
    have hsorted : KeyList.Sorted record := KeyList.sorted_ofList fields
    refine ⟨exists_rowOf_iff hnames hsorted.nodup_keys, fun row hrow => ?_, fun m => ?_⟩
    · have hcells := forall₂_of_mapM_ok ((rowOf_eq_ok_iff hnames hsorted.nodup_keys).mp hrow)
      obtain ⟨hlength, hcell⟩ := List.forall₂_iff_get.mp hcells
      refine ⟨hlength.symm, fun i c hc => ?_⟩
      obtain ⟨hi, rfl⟩ := List.getElem?_eq_some_iff.mp hc
      have hvalue := hcell i hi (hlength ▸ hi)
      rw [List.get_eq_getElem, List.get_eq_getElem, Column.fieldOf] at hvalue
      rw [List.getElem?_eq_getElem (hlength ▸ hi)]
      refine ⟨fun v hv => ⟨_, ?_, rfl⟩, fun hnone => ?_⟩
      · rwa [hv] at hvalue
      · rw [hnone] at hvalue
        rw [Except.ok.inj hvalue]
    · simp only [Text.Utf8.ofString_lt_iff]
      exact rowOf_eq_error_iff hnames hsorted
  · intro bytes bytes' fields fields' hfields hfields' h
    exact ⟨_, _, Json.read?_of_listedFields? hfields, Json.read?_of_listedFields? hfields',
      hsame fields fields' h⟩

/-- Two texts of one price: the second has a note, another order and a price that is taken back. -/
theorem rowOf_column_by_column_price :
    let d := ofEntity "price" ⟨"", KeyList.ofList
      [("net", .ofKind "float"), ("id", (Property.ofKind "uuid").markPrimary)]⟩ false
    let bytes := (Json.object [("id", .string "a"), ("net", .bool true)]).bytes
    let bytes' := (Json.object [("note", .string "b"), ("net", .string "c"), ("net", .bool true),
      ("id", .string "a")]).bytes
    ∃ record record', Json.read? bytes = some (.object record)
      ∧ Json.read? bytes' = some (.object record') ∧ d.rowOf record = d.rowOf record' := by
  intro d bytes bytes'
  have hfields := Json.listedFields?_bytes [("id", .string "a"), ("net", .bool true)]
    ⟨trivial, trivial, trivial⟩
  have hfields' := Json.listedFields?_bytes [("note", .string "b"), ("net", .string "c"),
    ("net", .bool true), ("id", .string "a")] ⟨trivial, trivial, trivial, trivial, trivial⟩
  obtain ⟨-, -, htexts⟩ := rowOf_column_by_column "price" ""
    [("net", .ofKind "float"), ("id", (Property.ofKind "uuid").markPrimary)] false
  have hcolumns : d.columns.map (·.name) = ["id", "net"] := by decide +kernel
  obtain ⟨record, record', hread, hread', hrows⟩ :=
    htexts bytes bytes' _ _ hfields hfields' fun c hc => by
      have hname := List.mem_map_of_mem (f := fun c : Column => c.name) hc
      rw [hcolumns] at hname
      rcases List.mem_pair.mp hname with hname | hname
      · rw [hname]
        rfl
      · rw [hname]
        rfl
  exact ⟨record, record', hread, hread', hrows⟩

end TableDefinition

end ShopTables
