import ShopTables.Command.Listing
import ShopTables.Proofs.Api.Search
import ShopTables.Proofs.RowStore.ShownCells
import ShopTables.Proofs.Schema.Record
import ShopTables.Proofs.Table.Scan

/-!
# What a scan shows

```
    records  --rowOf-->  rows  --insertAll-->  row store  --rows-->  rows  --rowObject-->  objects
```

A scan makes a row of each record, keeps the rows, and gives them partition by partition; a listing
shows each of them as an object. If every record suits the table, that is, has a value of its kind
for each column, and one at all for each column of the primary key, then the objects are the
records, restricted to the columns, each as often as the shop sent it (`scan_shows`).
-/

namespace ShopTables

/-! ### The rows of columns one by one -/

namespace RowStore

variable {columns : List Column}

theorem keep_map (cell : Column → Value) :
    keep columns (columns.map cell) = columns.map fun c => c.kept (cell c) := by
  rw [keep, ← List.map_prod_left_eq_zip, List.map_map]
  rfl

/-- A row is admitted if no column that must not be empty would be. -/
theorem admitted_map {table : String} {cell : Column → Value}
    (h : ∀ c ∈ columns, c.nullable = false → (c.kept (cell c)).isNull = false) :
    admitted table columns (columns.map cell) = .ok (keep columns (columns.map cell)) := by
  rw [admitted]
  split_ifs with hempty hlength
  · obtain rfl := List.isEmpty_iff.mp hempty
    rfl
  · exact absurd (List.length_map _) hlength
  · split
    · -- a column found empty would be one of the columns
      rename_i c empty hfound
      have hempty := List.find?_some hfound
      have hmem := List.mem_of_find?_eq_some hfound
      rw [keep_map, ← List.map_prod_left_eq_zip] at hmem
      obtain ⟨c', hc', hpair⟩ := List.mem_map.mp hmem
      obtain ⟨rfl, rfl⟩ := Prod.mk.inj hpair
      rw [Bool.and_eq_true, Bool.not_eq_true'] at hempty
      rw [h c' hc' hempty.1] at hempty
      cases hempty.2
    · rfl

end RowStore

namespace Listing

/-- The object that is shown of the cells of a row. -/
def cellsObject (columns : List Column) (cells : List Cell) : Json :=
  rowObject columns ((columns.zip cells).map fun (c, cell) => cell.toValue c)

theorem cellsObject_map (columns : List Column) (kept : Column → Cell) :
    cellsObject columns (columns.map kept)
      = Json.ofFields (columns.map fun c => (c.name, c.shown (kept c))) := by
  rw [cellsObject, ← List.map_prod_left_eq_zip, List.map_map, rowObject,
    ← List.map_prod_left_eq_zip, List.map_map]
  rfl

end Listing

/-! ### One record -/

namespace TableDefinition

/-- A record has a value of its kind for each column, and one other than null for each column of
the primary key. What else it has does not matter. -/
structure Suits (d : TableDefinition) (record : KeyList Json) : Prop where
  ofKind : ∀ c ∈ d.columns, c.OfKind (c.fieldOf record)
  key : ∀ c ∈ d.columns, c.primaryKey = true → c.fieldOf record ≠ .null

/-- A record restricted to the columns of a table, with null for the fields it does not have. -/
def restrict (d : TableDefinition) (record : KeyList Json) : Json :=
  Json.ofFields (d.columns.map fun c => (c.name, c.fieldOf record))

variable {d : TableDefinition} {record : KeyList Json}

theorem sound_fieldOf {depth : Nat} (h : Json.SoundFields depth record) (c : Column) :
    Json.Sound depth (c.fieldOf record) := by
  rw [Column.fieldOf]
  cases hfield : record.get? c.name with
  | none => trivial
  | some v => exact Json.soundFields_iff.mp h _ (KeyList.mem_of_get? hfield)

/-- A record that suits has a row, which is admitted, and what is kept of it shows the record. -/
theorem Suits.exists_row (hnames : (d.columns.map (·.name)).Nodup)
    (hnullable : ∀ c ∈ d.columns, c.nullable = false → c.primaryKey = true)
    (hsound : KeyList.Sorted record ∧ Json.SoundFields (Json.maxDepth - 3) record)
    (h : d.Suits record) :
    ∃ row, d.rowOf record = .ok row
      ∧ RowStore.admitted d.name d.columns row = .ok (RowStore.keep d.columns row)
      ∧ Listing.cellsObject d.columns (RowStore.keep d.columns row) = d.restrict record := by
  have hcells : ∀ c ∈ d.columns, ∃ value, c.convert (c.fieldOf record) = .ok value
      ∧ c.shown (c.kept value) = c.fieldOf record
      ∧ (c.kept value).isNull = (c.fieldOf record).isNull := fun c hc =>
    Column.shown_of_ofKind (by decide) (sound_fieldOf hsound.2 c) (h.ofKind c hc)
  have hvalues : Nonempty Value := ⟨.null⟩
  choose! cell hconvert hshown hnull using hcells
  refine ⟨d.columns.map cell, rowOf_eq hnames hsound.1.nodup_keys hconvert,
    RowStore.admitted_map fun c hc hempty => ?_, ?_⟩
  · rw [hnull c hc, ← Bool.not_eq_true, Json.isNull_iff]
    exact h.key c hc (hnullable c hc hempty)
  · rw [RowStore.keep_map, Listing.cellsObject_map, restrict]
    congr 1
    exact List.map_congr_left fun c hc => congrArg (Prod.mk c.name) (hshown c hc)

end TableDefinition

/-! ### All records -/

/-- Records that suit make a store whose rows show them. -/
theorem Session.exists_storeOf_shows {d : TableDefinition} {partitions : Nat}
    {records : List (KeyList Json)} (hnumbers : RowStore.NumbersShown d.columns)
    (hnullable : ∀ c ∈ d.columns, c.nullable = false → c.primaryKey = true)
    (hcreate : ∃ empty, RowStore.create d.name d.columns partitions = .ok empty)
    (hsound : ∀ record ∈ records,
      KeyList.Sorted record ∧ Json.SoundFields (Json.maxDepth - 3) record)
    (hrecords : ∀ record ∈ records, d.Suits record) :
    ∃ store, storeOf d partitions records = .ok store
      ∧ (store.rows.map (Listing.rowObject d.columns)).Perm (records.map d.restrict) := by
  obtain ⟨empty, hcreate⟩ := hcreate
  have hrow := fun record hrecord => (hrecords record hrecord).exists_row
    (RowStore.nodup_names_of_create hcreate) hnullable (hsound record hrecord)
  obtain ⟨rows, hrows⟩ := exists_mapM_ok fun record hrecord =>
    (hrow record hrecord).imp fun row h => h.1
  -- each row is the one that its record is known to have
  have hbeside : List.Forall₂ (fun record row =>
      RowStore.admitted d.name d.columns row = .ok (RowStore.keep d.columns row)
        ∧ Listing.cellsObject d.columns (RowStore.keep d.columns row) = d.restrict record)
      records rows := by
    refine forall₂_imp_of_mem (forall₂_of_mapM_ok hrows) fun record hrecord row hof => ?_
    obtain ⟨row', hof', h⟩ := hrow record hrecord
    rw [hof] at hof'
    obtain rfl := Except.ok.inj hof'
    exact h
  obtain ⟨store, hstore⟩ := exists_storeOf hrows hcreate fun row hmem => by
    obtain ⟨_, -, h⟩ := exists_of_mem_of_forall₂ hbeside hmem
    exact ⟨_, h.1⟩
  obtain ⟨rows', hrows', hfilled⟩ := storeOf_ok hstore
  rw [hrows] at hrows'
  obtain rfl := Except.ok.inj hrows'
  have hobjects : (store.stored.map store.valuesOf).map (Listing.rowObject d.columns)
      = records.map d.restrict := by
    calc (store.stored.map store.valuesOf).map (Listing.rowObject d.columns)
        = (store.stored.map (·.cells)).map (Listing.cellsObject d.columns) := by
          rw [List.map_map, List.map_map, ← hfilled.columns]
          rfl
      _ = rows.map fun row => Listing.cellsObject d.columns (RowStore.keep d.columns row) := by
          rw [hfilled.cells, List.map_map]
          rfl
      _ = records.map d.restrict := by
          rw [← List.forall₂_eq_eq_eq, List.forall₂_map_left_iff, List.forall₂_map_right_iff]
          exact hbeside.flip.imp fun row record h => h.2
  have hperm := RowStore.perm_rows (hfilled.columns ▸ hnumbers) hfilled.numbered
  exact ⟨store, hstore, hobjects ▸ hperm.map (Listing.rowObject d.columns)⟩

/-! ### Tables of entities -/

theorem TableDefinition.column_ofEntity {registered : String} {e : Entity} {isMapping : Bool}
    {c : Column} (h : c ∈ (ofEntity registered e isMapping).columns) :
    c.name ∈ KeyList.keys e.properties ∧ c.nullable = !c.primaryKey := by
  obtain ⟨c', hc', rfl⟩ := List.mem_map.mp h
  have hmade : ∃ p ∈ e.properties, Column.ofProperty p.1 e.name p.2 = c' := by
    rcases List.mem_append.mp hc' with hc' | hc'
    · obtain ⟨p, hp, hmade⟩ := List.mem_map.mp (List.mem_of_mem_filter hc')
      exact ⟨p, List.mem_of_mem_filter hp, hmade⟩
    · obtain ⟨p, hp, hmade⟩ := List.mem_map.mp (List.mem_of_mem_filter hc')
      exact ⟨p, List.mem_of_mem_filter hp, hmade⟩
  obtain ⟨p, hp, rfl⟩ := hmade
  have hname : p.1 ∈ KeyList.keys e.properties := List.mem_map_of_mem hp
  by_cases hsource : (Column.ofProperty p.1 e.name p.2).source = ""
  · rw [if_pos hsource]
    exact ⟨hname, rfl⟩
  · rw [if_neg hsource]
    exact ⟨hname, rfl⟩

namespace TableHandle

/-- A scan of an entity's table succeeds when the statement is not cancelled, the shop answers and
every record suits; and a listing of its rows shows each record, restricted to the columns, as often
as the shop sent it. -/
theorem scan_shows {τ : Type} [CancellableApi τ] {registered : String} {e : Entity}
    {isMapping : Bool} {t : TableHandle} {s : Session τ} {ctx : Context} {bytes : List UInt8}
    {answer : SearchAnswer} (htable : t.definition = .ofEntity registered e isMapping)
    (hproperties : ∀ name ∈ KeyList.keys e.properties, Text.lowerAscii name ≠ "rowid")
    (hcreate : ∃ empty,
      RowStore.create t.definition.name t.definition.columns t.partitionCount = .ok empty)
    (hcancelled : CancellableApi.isCancelled ctx s.api = false)
    (hanswer : CancellableApi.isCancelled ctx s.api = false →
      ((Api.send ctx ⟨.post, searchPath t.definition.name, none⟩).runFrom s.api).1 = .ok bytes)
    (hread : SearchAnswer.read? bytes = some answer)
    (hrecords : ∀ record ∈ answer.records, t.definition.Suits record) :
    ∃ rows st, (scan ctx).runFrom (s, t) = (.ok rows, st)
      ∧ (rows.map (Listing.rowObject t.definition.columns)).Perm
          (answer.records.map t.definition.restrict) := by
  have hnumbers : RowStore.NumbersShown t.definition.columns := by
    intro c hc
    rw [htable] at hc
    exact hproperties c.name (TableDefinition.column_ofEntity hc).1
  have hnullable : ∀ c ∈ t.definition.columns, c.nullable = false → c.primaryKey = true := by
    intro c hc hempty
    rw [htable] at hc
    rw [(TableDefinition.column_ofEntity hc).2] at hempty
    simpa using hempty
  obtain ⟨store, hstore, hperm⟩ := Session.exists_storeOf_shows hnumbers hnullable hcreate
    (fun record hrecord => SearchAnswer.sound_of_read? hread hrecord) hrecords
  have hsend : (Api.send ctx ⟨.post, searchPath t.definition.name, none⟩).runFrom s.api
      = (.ok bytes, ((Api.send ctx ⟨.post, searchPath t.definition.name, none⟩).runFrom s.api).2) :=
    Prod.ext (hanswer hcancelled) rfl
  exact ⟨store.rows, _, runFrom_scan ctx hsend hread hstore, hperm⟩

/-! ### One product -/

/-- Products with a price, a switch and a document. -/
def productEntity : Entity where
  name := "product"
  properties := [("active", .ofKind "boolean"), ("custom", .ofKind "json_object"),
    ("id", (Property.ofKind "uuid").markPrimary), ("price", .ofKind "float")]

def productText : List Char :=
  "\x7b\"data\":[\x7b\"custom\":\x7b\"a\":1\x7d,\"id\":\"1\",\"note\":\"\",\"price\":1.5\x7d]\x7d".toList

/-- One product, which has no switch and a field that the table does not have. -/
def productRecord : KeyList Json :=
  [("custom", .object [("a", .ofInt 1)]), ("id", .string "1"), ("note", .string ""),
    ("price", .number (.float (.ofBits 0x3FF8000000000000)))]

/-- The text taken apart. -/
def productOutline : Json.Outline :=
  .object [("data".toList.map .char, .array [.object [
    ("custom".toList.map .char, .object [("a".toList.map .char,
      .number ⟨false, ['1'], none, none⟩)]),
    ("id".toList.map .char, .string [.char '1']), ("note".toList.map .char, .string []),
    ("price".toList.map .char, .number ⟨false, ['1'], some ['5'], none⟩)]])]

theorem outlineRead?_productText :
    Json.Outline.read? (Text.Utf8.encode productText) = some productOutline := by
  open Json.Outline in
  have hvalue : value? (productText.map some) = some (productOutline, []) := by
    apply value?_object
    apply members?_last rfl
    apply value?_array
    apply items?_last
    apply value?_object
    apply members?_cons rfl (value?_object (members?_last rfl (value?_digit rfl _)))
    apply members?_cons rfl (value?_quote _)
    apply members?_cons rfl (value?_quote _)
    exact members?_last rfl (value?_digit rfl _)
  rw [Json.Outline.read?_eq, Text.Utf8.decode_encode, hvalue]
  rfl

theorem read?_productText :
    SearchAnswer.read? (Text.Utf8.encode productText) = some ⟨none, [productRecord]⟩ := by
  have hprice : (⟨false, ['1'], some ['5'], none⟩ : Json.Literal).number?
      = some (.float (.ofBits 0x3FF8000000000000)) := by decide +kernel
  rw [SearchAnswer.read?, outlineRead?_productText, Option.bind_some, productOutline,
    SearchAnswer.ofOutline?]
  show (Json.Form.list? (SearchAnswer.record? (Json.maxDepth - 3)) _).bind _ = _
  simp only [Json.Form.list?, List.mapM_cons, List.mapM_nil, SearchAnswer.record?,
    Json.ofMembers?, Json.ofOutline?, hprice]
  rfl

/-- The product is shown as it was sent, without its note and with null for the switch. -/
theorem scan_shows_product :
    let t : TableHandle := ⟨.ofEntity "product" productEntity false, 2, none⟩
    let s : Session CannedApi :=
      { api := CannedApi.start.respond .post (searchPath "product") (Text.Utf8.encode productText) }
    ∃ rows st, (scan ⟨"q"⟩).runFrom (s, t) = (.ok rows, st)
      ∧ rows.map (Listing.rowObject t.definition.columns)
        = [.object [("active", .null), ("custom", .object [("a", .ofInt 1)]), ("id", .string "1"),
            ("price", .number (.float (.ofBits 0x3FF8000000000000)))]] := by
  intro t s
  have hsuits : ∀ record ∈ [productRecord], t.definition.Suits record := by
    intro record hrecord
    obtain rfl := List.mem_singleton.mp hrecord
    have hcolumns : t.definition.columns = [⟨"id", .text, false, true, "product", none⟩,
        ⟨"active", .boolean, true, false, "product", none⟩,
        ⟨"custom", .text, true, false, "product", some "json"⟩,
        ⟨"price", .double, true, false, "product", none⟩] := rfl
    constructor
    · rw [hcolumns]
      simp only [List.forall_mem_cons]
      exact ⟨.text rfl rfl "1", .null, .document rfl ⟨trivial, trivial⟩,
        .double rfl rfl rfl (by decide), List.forall_mem_nil _⟩
    · rw [hcolumns]
      simp only [List.forall_mem_cons]
      refine ⟨fun _ => Json.noConfusion, nofun, nofun, nofun, List.forall_mem_nil _⟩
  have hname : t.definition.name = "product" := rfl
  have hanswer : ((Api.send ⟨"q"⟩ ⟨.post, searchPath t.definition.name, none⟩).runFrom s.api).1
      = .ok (Text.Utf8.encode productText) := by
    rw [hname]
    rfl
  have hcancelled : CancellableApi.isCancelled (⟨"q"⟩ : Context) s.api = false := rfl
  have hcreate : RowStore.fault? t.definition.name t.definition.columns = none := by decide
  obtain ⟨rows, st, hscan, hperm⟩ := scan_shows (t := t) (s := s) (e := productEntity)
    rfl (by decide) ⟨_, RowStore.create_eq_ok.mpr ⟨hcreate, rfl⟩⟩ hcancelled (fun _ => hanswer)
    read?_productText hsuits
  exact ⟨rows, st, hscan, List.perm_singleton.mp hperm⟩

end TableHandle

end ShopTables
