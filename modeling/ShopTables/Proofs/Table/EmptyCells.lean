import ShopTables.Proofs.RowStore.Partitions
import ShopTables.Proofs.Schema.Columnwise
import ShopTables.Proofs.Table.ShownRecords

/-!
# Which cells of a scan are empty

```
    field  --convert-->  value  --kept, toValue-->  settled value  --toJson-->  what is shown
```

A value comes back from a row store as it was given, but for what is no number, which is lost, and
minus zero, which loses its sign (`Value.settled`). The numbers of an answer are finite, so a field
becomes a number that is not finite only as a text in a column of numbers. The cells of a scan are
empty, or shown as null, where a record has no field or null there, and else only for such texts
(`TableHandle.scan_empty_cells`); but for these they are (`TableHandle.scan_loses_weights`).
-/

namespace ShopTables

theorem Binary64.isFinite_of_isNaN {x : Binary64} (h : x.isNaN = true) : x.isFinite = false :=
  Bool.eq_false_iff.mpr fun hfinite => by
    rw [isNaN_of_isFinite hfinite] at h
    cases h

/-! ### Values that come back from a row store -/

namespace Value

/-- A value as it comes back from a row store: what is no number is lost, and minus zero loses its
sign. -/
def settled : Value → Value
  | .double x =>
    if x.isNaN then .null else if x = .zero true then .double (.zero false) else .double x
  | v => v

theorem settled_eq_null_iff {v : Value} :
    v.settled = .null ↔ v = .null ∨ ∃ x, v = .double x ∧ x.isNaN = true := by
  cases v with
  | double x =>
    rw [settled]
    split_ifs with hnan hzero
    · exact iff_of_true rfl (.inr ⟨x, rfl, hnan⟩)
    · simp [hnan]
    · simp [hnan]
  | _ => simp [settled]

theorem toJson_double_eq_null_iff {x : Binary64} :
    (Value.double x).toJson = .null ↔ x.isFinite = false := by
  cases hfinite : x.isFinite with
  | true => simp [toJson, hfinite]
  | false => simp [toJson, hfinite]

theorem toJson_settled_eq_null_iff {v : Value} : v.settled.toJson = .null ↔ v.toJson = .null := by
  cases v with
  | double x =>
    rw [settled]
    split_ifs with hnan hzero
    · exact iff_of_true rfl (toJson_double_eq_null_iff.mpr (Binary64.isFinite_of_isNaN hnan))
    · rw [hzero, toJson_double_eq_null_iff, toJson_double_eq_null_iff]
      rfl
    · rfl
  | _ => rfl

end Value

namespace Column

variable {c : Column}

theorem toValue_kept_settled {value : Value} (h : c.Holds value) :
    (c.kept value).toValue c = value.settled := by
  cases value with
  | null => exact toValue_kept trivial
  | text s => exact toValue_kept h.2
  | boolean b => exact toValue_kept h.2
  | json bytes => exact toValue_kept h
  | double x =>
    rw [Value.settled]
    split_ifs with hnan hzero
    · have hcell : Cell.ofValue (.double x) = .null := if_pos hnan
      have hkept : c.kept (.double x) = .null := by
        rw [← c.kept_null, kept, hcell]
        rfl
      rw [hkept]
      rfl
    · have hkept : c.kept (.double (.zero true)) = .real (.zero false) := by
        rw [kept, storageType_of_not_keepsDocuments h.1, h.2]
        decide +kernel
      rw [hzero, hkept]
      rfl
    · exact toValue_kept ⟨h.2, Bool.eq_false_iff.mpr hnan, hzero⟩

/-! ### What fields are converted to -/

variable {v : Json} {value : Value}

theorem eq_boolean_of_booleanCell? (h : booleanCell? v = some value) :
    ∃ b, value = .boolean b := by
  cases v with
  | bool b => exact ⟨b, (Option.some.inj h).symm⟩
  | number n => exact ⟨_, (Option.some.inj h).symm⟩
  | string s =>
    obtain ⟨b, -, rfl⟩ := Option.map_eq_some_iff.mp h
    exact ⟨b, rfl⟩
  | null => cases h
  | array items => cases h
  | object fields => cases h

/-- A number that a column reads is finite, unless it was a text. -/
theorem eq_double_of_doubleCell? (hv : v.FiniteNumber) (h : doubleCell? v = some value) :
    ∃ x, value = .double x ∧ (x.isFinite = true
      ∨ ∃ s, v = .string s ∧ Binary64.ofText? (Text.trim s.toList) = some x) := by
  cases v with
  | number n => exact ⟨_, (Option.some.inj h).symm, .inl hv⟩
  | string s =>
    obtain ⟨x, hx, rfl⟩ := Option.map_eq_some_iff.mp h
    exact ⟨x, rfl, .inr ⟨s, rfl, hx⟩⟩
  | bool b =>
    refine ⟨_, (Option.some.inj h).symm, .inl ?_⟩
    cases b <;> rfl
  | null => cases h
  | array items => cases h
  | object fields => cases h

/-- Is the value a text that a column of numbers reads as `x`? -/
def ReadsText (c : Column) (v : Json) (x : Binary64) : Prop :=
  c.keepsDocuments = false ∧ c.type = .double
    ∧ ∃ s, v = .string s ∧ Binary64.ofText? (Text.trim s.toList) = some x

/-- The ways in which a field's value is converted. Null becomes nothing, and all else something; a
number that it becomes is finite, unless it is read from a text. -/
inductive Conversion (c : Column) : Json → Value → Prop where
  | null : Conversion c .null .null
  | document {v : Json} (hnull : v ≠ .null) : Conversion c v (.json v.bytes)
  | text {v : Json} (hnull : v ≠ .null) (s : String) : Conversion c v (.text s)
  | boolean {v : Json} (hnull : v ≠ .null) (b : Bool) : Conversion c v (.boolean b)
  | finite {v : Json} (hnull : v ≠ .null) {x : Binary64} (hfinite : x.isFinite = true) :
    Conversion c v (.double x)
  | numeral {v : Json} {x : Binary64} (hreads : c.ReadsText v x) : Conversion c v (.double x)

theorem conversion_of_scalarCell? (hv : v.FiniteNumber) (hnull : v ≠ .null)
    (hkeeps : c.keepsDocuments = false) (h : c.scalarCell? v = some value) :
    c.Conversion v value := by
  unfold scalarCell? at h
  cases htype : c.type with
  | text =>
    rw [htype] at h
    obtain rfl := Option.some.inj h
    cases v <;> exact .text hnull _
  | boolean =>
    rw [htype] at h
    obtain ⟨b, rfl⟩ := eq_boolean_of_booleanCell? h
    exact .boolean hnull b
  | double =>
    rw [htype] at h
    obtain ⟨x, rfl, hfinite | hreads⟩ := eq_double_of_doubleCell? hv h
    · exact .finite hnull hfinite
    · exact .numeral ⟨hkeeps, htype, hreads⟩
  | json =>
    rw [htype] at h
    cases h

theorem conversion_of_convert (hv : v.FiniteNumber) (h : c.convert v = .ok value) :
    c.Conversion v value := by
  unfold convert at h
  split_ifs at h with hnull hkeeps
  · obtain rfl := Json.isNull_iff.mp hnull
    obtain rfl := Except.ok.inj h
    exact .null
  · obtain rfl := Except.ok.inj h
    exact .document fun heq => hnull (Json.isNull_iff.mpr heq)
  · cases hcell : c.scalarCell? v with
    | none =>
      rw [hcell] at h
      cases h
    | some cell =>
      rw [hcell] at h
      obtain rfl := Except.ok.inj h
      exact conversion_of_scalarCell? hv (fun heq => hnull (Json.isNull_iff.mpr heq))
        (Bool.eq_false_iff.mpr hkeeps) hcell

theorem convert_of_readsText {x : Binary64} (h : c.ReadsText v x) :
    c.convert v = .ok (.double x) := by
  obtain ⟨hkeeps, htype, s, rfl, hx⟩ := h
  refine convert_scalar hkeeps rfl ?_
  rw [scalarCell?, htype]
  show (Binary64.ofText? _).map _ = _
  rw [hx, Option.map_some]

theorem ReadsText.ne_null {x : Binary64} (h : c.ReadsText v x) : v ≠ .null := by
  obtain ⟨-, -, s, rfl, -⟩ := h
  exact nofun

theorem Conversion.eq_null_iff (h : c.Conversion v value) : value = .null ↔ v = .null := by
  cases h with
  | null => exact iff_of_true rfl rfl
  | document hnull => exact iff_of_false nofun hnull
  | text hnull s => exact iff_of_false nofun hnull
  | boolean hnull b => exact iff_of_false nofun hnull
  | finite hnull hfinite => exact iff_of_false nofun hnull
  | numeral hreads => exact iff_of_false nofun hreads.ne_null

/-- A value is shown as null if it is nothing or a number that is not finite. -/
theorem Conversion.toJson_eq_null_iff (h : c.Conversion v value) (hv : v.FiniteNumber) :
    value.toJson = .null ↔ value = .null ∨ ∃ x, value = .double x ∧ x.isFinite = false := by
  cases h with
  | document hnull =>
    -- the text of a document is not read as null, and what cannot be read is shown as a string
    have hread := Json.read?_bytes_ne_null hnull hv
    refine iff_of_false (fun hjson => ?_) (by simp)
    rw [Value.toJson] at hjson
    cases hdocument : Json.read? v.bytes with
    | none =>
      rw [hdocument] at hjson
      cases hjson
    | some w =>
      rw [hdocument, Option.getD_some] at hjson
      exact hread (hjson ▸ hdocument)
  | null => exact iff_of_true rfl (.inl rfl)
  | text hnull s => simp [Value.toJson]
  | boolean hnull b => simp [Value.toJson]
  | finite hnull hfinite => simp [Value.toJson_double_eq_null_iff]
  | numeral hreads => simp [Value.toJson_double_eq_null_iff]

/-- Numbers that are not finite were read from texts. -/
theorem exists_double_iff_of_convert (hv : v.FiniteNumber) (h : c.convert v = .ok value)
    {P : Binary64 → Prop} (hP : ∀ x, P x → x.isFinite = false) :
    (∃ x, value = .double x ∧ P x) ↔ ∃ x, c.ReadsText v x ∧ P x := by
  constructor
  · rintro ⟨x, rfl, hx⟩
    cases conversion_of_convert hv h with
    | finite hnull hfinite =>
      rw [hP x hx] at hfinite
      cases hfinite
    | numeral hreads => exact ⟨x, hreads, hx⟩
  · rintro ⟨x, hreads, hx⟩
    rw [convert_of_readsText hreads] at h
    exact ⟨x, (Except.ok.inj h).symm, hx⟩

/-- A field comes back as nothing if it is null or a text that is read as no number. -/
theorem settled_eq_null_iff (hv : v.FiniteNumber) (h : c.convert v = .ok value) :
    value.settled = .null ↔ v = .null ∨ ∃ x, c.ReadsText v x ∧ x.isNaN = true := by
  rw [Value.settled_eq_null_iff, (conversion_of_convert hv h).eq_null_iff,
    exists_double_iff_of_convert hv h fun _ => Binary64.isFinite_of_isNaN]

/-- A field is shown as null if it is null or a text that is read as a number that is not
finite. -/
theorem toJson_settled_eq_null_iff (hv : v.FiniteNumber) (h : c.convert v = .ok value) :
    value.settled.toJson = .null ↔ v = .null ∨ ∃ x, c.ReadsText v x ∧ x.isFinite = false := by
  have hvalue := conversion_of_convert hv h
  rw [Value.toJson_settled_eq_null_iff, hvalue.toJson_eq_null_iff hv, hvalue.eq_null_iff,
    exists_double_iff_of_convert hv h fun _ hx => hx]

/-- The record has no field for the column, or null there. -/
def IsMissing (c : Column) (record : KeyList Json) : Prop :=
  record.get? c.name = none ∨ record.get? c.name = some .null

theorem fieldOf_eq_null_iff {record : KeyList Json} :
    c.fieldOf record = .null ↔ c.IsMissing record := by
  rw [fieldOf, IsMissing]
  cases record.get? c.name <;> simp

/-- A cell of a record's row is empty if the field is missing, or a text in a column of numbers that
is read as no number; and it is shown as null if the field is missing or a text that is read as a
number that is not finite. Otherwise it is neither. -/
structure EmptyWhen (c : Column) (record : KeyList Json) (v : Value) : Prop where
  null : v = .null
    ↔ c.IsMissing record ∨ ∃ x, c.ReadsText (c.fieldOf record) x ∧ x.isNaN = true
  shown : v.toJson = .null
    ↔ c.IsMissing record ∨ ∃ x, c.ReadsText (c.fieldOf record) x ∧ x.isFinite = false

theorem finiteNumber_fieldOf {record : KeyList Json} (h : ∀ f ∈ record, f.2.FiniteNumber)
    (c : Column) : (c.fieldOf record).FiniteNumber := by
  rw [fieldOf]
  cases hfield : record.get? c.name with
  | none => trivial
  | some v => exact h _ (KeyList.mem_of_get? hfield)

end Column

/-! ### Rows -/

theorem RowStore.returned_eq_settled {columns : List Column} {row : Row}
    (h : List.Forall₂ Column.Holds columns row) :
    returned columns row = row.map Value.settled := by
  induction h with
  | nil => rfl
  | @cons c v columns row hv _ ih =>
    have hcons : returned (c :: columns) (v :: row)
        = (c.kept v).toValue c :: returned columns row := rfl
    rw [hcons, Column.toValue_kept_settled hv, ih, List.map_cons]

/-- A store gives back, in some order, what is kept of the rows it was filled with. -/
theorem Filled.perm_returned {d : TableDefinition} {partitions : Nat} {inserted : List Row}
    {store : RowStore} (h : Filled d partitions inserted store)
    (hshown : RowStore.NumbersShown d.columns) :
    store.rows.Perm (inserted.map (RowStore.returned d.columns)) := by
  have hvalues : store.stored.map store.valuesOf = inserted.map (RowStore.returned d.columns) := by
    calc store.stored.map store.valuesOf
        = (store.stored.map (·.cells)).map (RowStore.readBack d.columns) := by
          rw [List.map_map, ← h.columns]
          rfl
      _ = inserted.map (RowStore.returned d.columns) := by
          rw [h.cells, List.map_map]
          rfl
  exact hvalues ▸ RowStore.perm_rows (h.columns ▸ hshown) h.numbered

/-- The values of a record's row, as they come back, column by column. -/
theorem TableDefinition.settled_of_rowOf {d : TableDefinition} {record : KeyList Json} {row : Row}
    (hnames : (d.columns.map (·.name)).Nodup) (hsorted : KeyList.Sorted record)
    (hfinite : ∀ f ∈ record, f.2.FiniteNumber) (h : d.rowOf record = .ok row) :
    List.Forall₂ (fun c v => c.EmptyWhen record v) d.columns (RowStore.returned d.columns row) := by
  have hcells := forall₂_of_mapM_ok ((rowOf_eq_ok_iff hnames hsorted.nodup_keys).mp h)
  rw [RowStore.returned_eq_settled (hcells.imp fun _ _ => Column.holds_of_convert),
    List.forall₂_map_right_iff]
  refine hcells.imp fun c value hconvert => ?_
  have hv := Column.finiteNumber_fieldOf hfinite c
  constructor
  · rw [← Column.fieldOf_eq_null_iff]
    exact Column.settled_eq_null_iff hv hconvert
  · rw [← Column.fieldOf_eq_null_iff]
    exact Column.toJson_settled_eq_null_iff hv hconvert

namespace TableHandle

variable {σ : Type} [Api σ]

/-- A scan of an entity's table that succeeds gives, in some order, a row for each record of the
answer, with a cell for each column. A cell is empty exactly if the record has no field for the
column or null there, or if the column is one of numbers and the field a text that is read as no
number. And a cell is shown as null exactly in these cases and if the field is a text that is read
as an infinite number. -/
theorem scan_empty_cells {registered : String} {e : Entity} {isMapping : Bool} {t : TableHandle}
    (htable : t.definition = .ofEntity registered e isMapping)
    (hproperties : ∀ name ∈ KeyList.keys e.properties, Text.lowerAscii name ≠ "rowid")
    {ctx : Context} {s : Session σ} {bytes : List UInt8} {answer : SearchAnswer} {rows : List Row}
    (hanswer : s.answer ctx t.definition = .ok bytes)
    (hread : SearchAnswer.read? bytes = some answer)
    (hscan : ((scan ctx).runFrom (s, t)).1 = .ok rows) :
    ∃ shown, rows.Perm shown
      ∧ List.Forall₂ (fun record row =>
          List.Forall₂ (fun c v => c.EmptyWhen record v) t.definition.columns row)
        answer.records shown := by
  have hshown : RowStore.NumbersShown t.definition.columns := by
    intro c hc
    rw [htable] at hc
    exact hproperties c.name (TableDefinition.column_ofEntity hc).1
  obtain ⟨bytes', answer', inserted, store, hsend, hread', hinserted, hfilled, -, -, rfl⟩ :=
    scan_ok (Prod.ext hscan rfl)
  obtain rfl : bytes = bytes' :=
    Except.ok.inj (hanswer.symm.trans (congrArg Prod.fst hsend))
  obtain rfl := Option.some.inj (hread.symm.trans hread')
  refine ⟨_, hfilled.perm_returned hshown, List.forall₂_map_right_iff.mpr ?_⟩
  refine forall₂_imp_of_mem (forall₂_of_mapM_ok hinserted) fun record hrecord row hrow => ?_
  exact TableDefinition.settled_of_rowOf hfilled.names
    (SearchAnswer.sound_of_read? hread hrecord).1
    (SearchAnswer.finiteNumber_of_read? hread hrecord) hrow

/-! ### Products with a weight -/

def weighedEntity : Entity where
  name := "product"
  properties := [("id", (Property.ofKind "uuid").markPrimary), ("weight", .ofKind "float")]

def weighedHandle : TableHandle where
  definition := .ofEntity "product" weighedEntity false
  partitionCount := 1

/-- A session that has read nothing, with a shop that has products. -/
def weighing (products : List (List (String × Json))) : Session CannedApi where
  api := CannedApi.start.withSearch "product" (.array (products.map .object))

/-- The weight of a product without one is empty, and its key is not. -/
theorem scan_empty_cells_weight :
    ∃ id weight, ((scan ⟨"q"⟩).runFrom (weighing [[("id", .string "1")]], weighedHandle)).1
        = .ok [[id, weight]]
      ∧ weight = .null ∧ id.toJson ≠ .null := by
  have hread : SearchAnswer.read? (SearchAnswer.answerDocument [[("id", .string "1")]] 1).bytes
      = some ⟨some 1, [[("id", .string "1")]]⟩ :=
    SearchAnswer.read?_answerDocument (by decide) (by decide)
      (by simp [Json.ReadableFields, Json.Readable])
  obtain ⟨store, hstore⟩ : ∃ store,
      Session.storeOf weighedHandle.definition 1 [[("id", .string "1")]] = .ok store := ⟨_, rfl⟩
  have hscan := congrArg Prod.fst (runFrom_scan ⟨"q"⟩ (s := weighing [[("id", .string "1")]])
    (t := weighedHandle) rfl hread hstore)
  obtain ⟨shown, hperm, hrows⟩ := scan_empty_cells (s := weighing [[("id", .string "1")]])
    (t := weighedHandle) (e := weighedEntity) rfl (by decide) rfl hread hscan
  have hcolumns : weighedHandle.definition.columns = [⟨"id", .text, false, true, "product", none⟩,
      ⟨"weight", .double, true, false, "product", none⟩] := rfl
  rw [hcolumns] at hrows
  obtain ⟨row, _, hrow, hnil, rfl⟩ := List.forall₂_cons_left_iff.mp hrows
  obtain rfl := List.forall₂_nil_left_iff.mp hnil
  obtain ⟨id, _, hid, hcells, rfl⟩ := List.forall₂_cons_left_iff.mp hrow
  obtain ⟨weight, _, hweight, hnil, rfl⟩ := List.forall₂_cons_left_iff.mp hcells
  obtain rfl := List.forall₂_nil_left_iff.mp hnil
  rw [List.perm_singleton.mp hperm] at hscan
  refine ⟨id, weight, hscan, hweight.null.mpr (.inl (.inl rfl)), fun hnull => ?_⟩
  obtain (hnone | hnone) | ⟨x, ⟨-, htype, -⟩, -⟩ := hid.shown.mp hnull
  · cases hnone
  · cases hnone
  · cases htype

/-- Products whose weights are texts, of no number and of an infinite one. -/
def oddlyWeighed : List (KeyList Json) :=
  [[("id", .string "1"), ("weight", .string "NaN")],
    [("id", .string "2"), ("weight", .string "inf")]]

/-- Each of these has a weight, but the one comes back empty, and the other is shown as null. -/
theorem scan_loses_weights :
    (∀ record ∈ oddlyWeighed, ∃ text, record.get? "weight" = some (.string text))
      ∧ ((scan ⟨"q"⟩).runFrom (weighing oddlyWeighed, weighedHandle)).1
        = .ok [[.text "1", .null], [.text "2", .double (.infinite false)]]
      ∧ (Value.double (.infinite false)).toJson = .null := by
  have hfields : ∀ record ∈ oddlyWeighed, ∃ text, record.get? "weight" = some (.string text) := by
    simp only [oddlyWeighed, List.forall_mem_cons]
    exact ⟨⟨"NaN", rfl⟩, ⟨"inf", rfl⟩, List.forall_mem_nil _⟩
  have hread : SearchAnswer.read? (SearchAnswer.answerDocument oddlyWeighed 2).bytes
      = some ⟨some 2, oddlyWeighed⟩ :=
    SearchAnswer.read?_answerDocument (by decide) (by decide)
      (by simp [oddlyWeighed, Json.ReadableFields, Json.Readable])
  obtain ⟨store, hstore, hrows⟩ : ∃ store,
      Session.storeOf weighedHandle.definition 1 oddlyWeighed = .ok store
        ∧ store.rows = [[.text "1", .null], [.text "2", .double (.infinite false)]] :=
    ⟨_, rfl, by decide +kernel⟩
  have hscan := congrArg Prod.fst (runFrom_scan ⟨"q"⟩ (s := weighing oddlyWeighed)
    (t := weighedHandle) rfl hread hstore)
  rw [hrows] at hscan
  exact ⟨hfields, hscan, rfl⟩

end TableHandle

end ShopTables
