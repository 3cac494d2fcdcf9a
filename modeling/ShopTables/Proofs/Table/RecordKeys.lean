import ShopTables.Proofs.Binary64.ShownIntegers
import ShopTables.Proofs.RowStore.TakenOff
import ShopTables.Proofs.Table.ShownRecords
import ShopTables.Proofs.Table.SyncRequest

/-!
# The keys of records

```
    record  --rowOf, keep-->  stored row  --valuesOf-->  row  --keyOf?-->  texts of the key
```

The way of a record's key from the search answer to the texts by which the shop is told of it
(`MadeOf.names`). A string is named by itself. An integer has become a number on the way, and is named
by an integer that goes to the same number: by itself up to 2 ^ 53, perhaps by another beyond
(`Json.NamedBy`). So texts tell keys apart as far as numbers do (`Json.NamedBy.alike`), and so does
the row store, which finds rows by their cells (`MadeOf.keyTexts_congr`).
-/

namespace ShopTables

/-! ### Values of keys -/

/-- The values of a key's property: strings, or integers where the property holds these. -/
inductive Property.KeyValue (p : Property) : Json → Prop where
  | string (hkind : p.kind = "uuid" ∨ p.kind = "string") (s : String) : KeyValue p (.string s)
  | integer (hkind : p.kind = "int") (i : Int) : KeyValue p (.ofInt i)

/-- Values of one property are both strings or both integers. -/
theorem Property.KeyValue.both {p : Property} {v w : Json} (hv : p.KeyValue v)
    (hw : p.KeyValue w) :
    (∃ s t, v = .string s ∧ w = .string t) ∨ ∃ i j, v = .ofInt i ∧ w = .ofInt j := by
  cases hv with
  | string hkind s =>
    cases hw with
    | string _ t => exact .inl ⟨s, t, rfl, rfl⟩
    | integer hint j =>
      rw [hint] at hkind
      exact absurd hkind (by decide)
  | integer hint i =>
    cases hw with
    | string hkind t =>
      rw [hint] at hkind
      exact absurd hkind (by decide)
    | integer _ j => exact .inr ⟨i, j, rfl, rfl⟩

namespace Json

/-- The text by which a value is named: a string by itself, an integer by the digits of one that goes
to the same number, which is the integer itself up to 2 ^ 53. -/
inductive NamedBy : Json → String → Prop where
  | string (s : String) : NamedBy (.string s) s
  | integer {i j : Int} (nearest : Binary64.ofInt j = Binary64.ofInt i)
      (exact : i.natAbs ≤ 9007199254740992 → j = i) :
      NamedBy (.ofInt i) (String.ofList (writeInt j))

/-- Values that are not told apart: strings only if they are one, integers if they go to one number,
and up to 2 ^ 53 only if they are one. -/
inductive Alike : Json → Json → Prop where
  | string (s : String) : Alike (.string s) (.string s)
  | integer {i j : Int} (nearest : Binary64.ofInt i = Binary64.ofInt j)
      (exact : i.natAbs ≤ 9007199254740992 → j.natAbs ≤ 9007199254740992 → i = j) :
      Alike (.ofInt i) (.ofInt j)

/-- Values of one property that are named by one text are alike. -/
theorem NamedBy.alike {p : Property} {v w : Json} {text : String} (hv : p.KeyValue v)
    (hw : p.KeyValue w) (hnamed : NamedBy v text) (hnamed' : NamedBy w text) : Alike v w := by
  obtain ⟨s, t, rfl, rfl⟩ | ⟨i, j, rfl, rfl⟩ := hv.both hw
  · cases hnamed
    cases hnamed'
    exact .string _
  · generalize htext : text = text' at hnamed'
    cases hnamed with
    | @integer _ i' hi hexact =>
      cases hnamed' with
      | @integer _ j' hj hexact' =>
        obtain rfl : i' = j' := writeInt_injective (String.ofList_inj.mp htext)
        refine .integer (hi.symm.trans hj) fun hsmall hsmall' => ?_
        rw [← hexact hsmall, ← hexact' hsmall']

/-! ### Their cells -/

/-- The cell that is kept of a value of a key. -/
def keyCell : Json → Cell
  | .string s => .text s
  | .number n => .real n.toBinary64
  | _ => .null

variable {p : Property} {v w : Json} {depth : Nat}

theorem natAbs_lt_of_sound {i : Int} (h : Sound depth (.ofInt i)) :
    i.natAbs < 18446744073709551616 := by
  rw [ofInt, Sound] at h
  omega

/-- A key's column keeps the cell of a value. -/
theorem kept_of_keyValue {c : Column} {value : Value} (htype : c.type = p.columnType)
    (hcomment : c.comment = p.comment) (hsound : Sound depth v) (hv : p.KeyValue v)
    (hconvert : c.convert v = .ok value) : c.kept value = v.keyCell := by
  cases hv with
  | string hkind s =>
    have htext : c.type = .text := by
      rw [htype, Property.columnType]
      rcases hkind with hkind | hkind
      · rw [hkind]
        rfl
      · rw [hkind]
        rfl
    have hkeeps : c.keepsDocuments = false := by
      rw [Column.keepsDocuments, Column.isJson, hcomment, htext, Property.comment]
      rcases hkind with hkind | hkind
      · rw [hkind]
        decide
      · rw [hkind]
        decide
    have hcell : c.scalarCell? (.string s) = some (.text s) := by
      rw [Column.scalarCell?, htext]
      rfl
    rw [Column.convert_scalar hkeeps rfl hcell] at hconvert
    obtain rfl := Except.ok.inj hconvert
    rw [Column.kept, Column.storageType_of_not_keepsDocuments hkeeps, htext]
    rfl
  | integer hkind i =>
    have hdouble : c.type = .double := by
      rw [htype, Property.columnType, hkind]
      rfl
    have hkeeps : c.keepsDocuments = false := by
      rw [Column.keepsDocuments, Column.isJson, hcomment, hdouble, Property.comment, hkind]
      decide
    have hcell : c.scalarCell? (.ofInt i) = some (.double (Binary64.ofInt i)) := by
      rw [Column.scalarCell?, hdouble]
      rfl
    rw [Column.convert_scalar hkeeps rfl hcell] at hconvert
    obtain rfl := Except.ok.inj hconvert
    rw [Column.kept, Column.storageType_of_not_keepsDocuments hkeeps, hdouble, Cell.ofValue,
      Binary64.isNaN_ofInt, if_neg Bool.false_ne_true]
    exact StorageType.coerce_real (Binary64.ofInt_ne_zero (natAbs_lt_of_sound hsound))

/-- The text of the cell names the value. -/
theorem namedBy_display (c : Column) (hsound : Sound depth v) (hv : p.KeyValue v) :
    NamedBy v (v.keyCell.toValue c).display := by
  cases hv with
  | string hkind s => exact .string s
  | integer hkind i =>
    obtain ⟨j, hdisplay, hnearest, hexact⟩ :=
      Binary64.display_ofInt (natAbs_lt_of_sound hsound)
    show NamedBy (.ofInt i) (String.ofList (Binary64.ofInt i).display)
    rw [hdisplay]
    exact .integer hnearest hexact

/-- Cells that stand at one place are one cell. -/
theorem keyCell_eq_of_standing (hsound : Sound depth v) (hsound' : Sound depth w)
    (hv : p.KeyValue v) (hw : p.KeyValue w) (h : v.keyCell.standing = w.keyCell.standing) :
    v.keyCell = w.keyCell := by
  obtain ⟨s, t, rfl, rfl⟩ | ⟨i, j, rfl, rfl⟩ := hv.both hw
  · obtain rfl := Text.Utf8.ofString_injective (Standing.text.inj h)
    rfl
  · exact congrArg Cell.real (Binary64.eq_of_standing (Binary64.isNaN_ofInt i)
      (Binary64.isNaN_ofInt j) (Binary64.ofInt_ne_zero (natAbs_lt_of_sound hsound))
      (Binary64.ofInt_ne_zero (natAbs_lt_of_sound hsound')) h)

end Json

/-! ### The key of an entity -/

namespace Entity

/-- The properties that make up the key of an entity's table. -/
def keyProperties (e : Entity) : KeyList Property :=
  e.properties.filter fun (_, p) => p.isPrimary && !p.isAssociation

/-- A record has a value for each property of the key. -/
def GivesKey (e : Entity) (record : KeyList Json) : Prop :=
  ∀ f ∈ e.keyProperties, ∃ v, record.get? f.1 = some v ∧ f.2.KeyValue v

/-- A key has just the names of the key's properties, each with a text by which the record's value
is named. -/
structure Names (e : Entity) (record : KeyList Json) (key : RecordKey) : Prop where
  sorted : KeyList.Sorted key
  names : (KeyList.keys key).Perm (KeyList.keys e.keyProperties)
  texts : ∀ f ∈ e.keyProperties, ∃ v text, record.get? f.1 = some v ∧ key.get? f.1 = some text
    ∧ v.NamedBy text

/-- Two records are alike in each property of the key. -/
def SameKey (e : Entity) (record record' : KeyList Json) : Prop :=
  ∀ f ∈ e.keyProperties, ∃ v w, record.get? f.1 = some v ∧ record'.get? f.1 = some w ∧ v.Alike w

variable {e : Entity}

/-- Records that one key names are not told apart. -/
theorem Names.sameKey {record record' : KeyList Json} {key : RecordKey} (h : e.Names record key)
    (h' : e.Names record' key) (hgives : e.GivesKey record) (hgives' : e.GivesKey record') :
    e.SameKey record record' := by
  intro f hf
  obtain ⟨v, text, hv, htext, hnamed⟩ := h.texts f hf
  obtain ⟨w, text', hw, htext', hnamed'⟩ := h'.texts f hf
  obtain ⟨_, hv', hvalue⟩ := hgives f hf
  obtain ⟨_, hw', hvalue'⟩ := hgives' f hf
  obtain rfl := Option.some.inj (hv.symm.trans hv')
  obtain rfl := Option.some.inj (hw.symm.trans hw')
  obtain rfl := Option.some.inj (htext.symm.trans htext')
  exact ⟨v, w, hv, hw, hnamed.alike hvalue hvalue' hnamed'⟩

/-- The column of a property in the entity's table. -/
def columnOf (e : Entity) (registered : String) (f : String × Property) : Column :=
  let c := Column.ofProperty f.1 e.name f.2
  if c.source = "" then { c with source := if e.name = "" then registered else e.name } else c

section

variable (e) (registered : String) (f : String × Property)

theorem name_columnOf : (e.columnOf registered f).name = f.1 := by
  rw [columnOf]
  split_ifs <;> rfl

theorem type_columnOf : (e.columnOf registered f).type = f.2.columnType := by
  rw [columnOf]
  split_ifs <;> rfl

theorem comment_columnOf : (e.columnOf registered f).comment = f.2.comment := by
  rw [columnOf]
  split_ifs <;> rfl

theorem primaryKey_columnOf : (e.columnOf registered f).primaryKey = f.2.isPrimary := by
  rw [columnOf]
  split_ifs <;> rfl

/-- The columns of the table's primary key are those of the key's properties. -/
theorem filter_primaryKey (isMapping : Bool) :
    (TableDefinition.ofEntity registered e isMapping).columns.filter (·.primaryKey)
      = e.keyProperties.map (e.columnOf registered) := by
  have hcolumns : (TableDefinition.ofEntity registered e isMapping).columns
      = (((e.properties.filter fun (_, p) => !p.isAssociation).filter fun (_, p) => p.isPrimary).map
          (e.columnOf registered))
        ++ (((e.properties.filter fun (_, p) => !p.isAssociation).filter fun (_, p) =>
          !p.isPrimary).map (e.columnOf registered)) := by
    rw [TableDefinition.ofEntity, columns, List.filter_map, List.filter_map, List.map_append,
      List.map_map, List.map_map]
    rfl
  have hprimary : (fun c : Column => c.primaryKey) ∘ e.columnOf registered
      = fun f => f.2.isPrimary := funext (e.primaryKey_columnOf registered)
  rw [hcolumns, List.filter_append, List.filter_map, List.filter_map, hprimary, List.filter_filter,
    List.filter_filter, List.filter_filter, keyProperties]
  simp

end

end Entity

/-! ### Stored cells and the records they were made of -/

/-- Rows with one key stand at one place in each column of the primary key. -/
theorem RowStore.standing_of_keyOf {columns : List Column} {kept kept' : Column → Cell}
    (hkey : keyOf columns (columns.map kept) = keyOf columns (columns.map kept')) {c : Column}
    (hc : c ∈ columns) (hprimary : c.primaryKey = true) :
    (kept c).standing = (kept' c).standing := by
  obtain ⟨i, hi, rfl⟩ := List.getElem_of_mem hc
  have hkeyColumn : (columns[i], i) ∈ keyColumns columns :=
    mem_keyColumns_of_primaryKey (List.getElem?_eq_getElem hi) hprimary
  rw [keyOf, keyOf, Key.mk.injEq, List.map_inj_left] at hkey
  have hstanding := hkey _ hkeyColumn
  dsimp only at hstanding
  rw [List.getD_eq_getElem _ _ (by rwa [List.length_map]),
    List.getD_eq_getElem _ _ (by rwa [List.length_map]), List.getElem_map,
    List.getElem_map] at hstanding
  exact hstanding

/-- Cells are those that a table keeps of a record. -/
def TableDefinition.MadeOf (d : TableDefinition) (record : KeyList Json) (cells : List Cell) :
    Prop :=
  ∃ cell : Column → Value, (∀ c ∈ d.columns, c.convert (c.fieldOf record) = .ok (cell c))
    ∧ cells = d.columns.map fun c => c.kept (cell c)

theorem TableDefinition.madeOf_of_rowOf {d : TableDefinition} {record : KeyList Json} {row : Row}
    (hnames : (d.columns.map (·.name)).Nodup) (hkeys : (KeyList.keys record).Nodup)
    (h : d.rowOf record = .ok row) : d.MadeOf record (RowStore.keep d.columns row) := by
  have hvalues : Nonempty Value := ⟨.null⟩
  have hconvert := fun c (hc : c ∈ d.columns) => exists_convert_of_rowOf hnames h hc
  choose! cell hcell using hconvert
  rw [rowOf_eq hnames hkeys hcell] at h
  obtain rfl := Except.ok.inj h
  exact ⟨cell, hcell, RowStore.keep_map cell⟩

/-- The rows of a filled store are those of the records, one after the other. -/
theorem Filled.madeOf {d : TableDefinition} {partitions : Nat} {inserted : List Row}
    {store : RowStore} {records : List (KeyList Json)} (h : Filled d partitions inserted store)
    (hrecords : ∀ record ∈ records, (KeyList.keys record).Nodup)
    (hinserted : records.mapM d.rowOf = .ok inserted) :
    List.Forall₂ (fun record (r : NumberedRow) => d.MadeOf record r.cells) records store.stored := by
  have hrows : List.Forall₂ (fun record row => d.MadeOf record (RowStore.keep d.columns row))
      records inserted :=
    forall₂_imp_of_mem (forall₂_of_mapM_ok hinserted) fun record hrecord row hrow =>
      TableDefinition.madeOf_of_rowOf h.names (hrecords record hrecord) hrow
  rw [← List.forall₂_map_right_iff (f := RowStore.keep d.columns), ← h.cells,
    List.forall₂_map_right_iff] at hrows
  exact hrows

namespace Entity

variable {e : Entity} {record : KeyList Json} {f : String × Property}

/-- What a record that gives the key has for a property of it. -/
theorem GivesKey.fieldOf (h : e.GivesKey record) (hf : f ∈ e.keyProperties)
    (registered : String) :
    record.get? f.1 = some ((e.columnOf registered f).fieldOf record)
      ∧ f.2.KeyValue ((e.columnOf registered f).fieldOf record) := by
  obtain ⟨v, hv, hvalue⟩ := h f hf
  rw [Column.fieldOf, name_columnOf, hv]
  exact ⟨rfl, hvalue⟩

end Entity

namespace TableDefinition.MadeOf

variable {registered : String} {e : Entity} {isMapping : Bool} {d : TableDefinition}
  {record record' : KeyList Json} {depth : Nat}

theorem columnOf_mem {f : String × Property} (hd : d = .ofEntity registered e isMapping)
    (hf : f ∈ e.keyProperties) :
    e.columnOf registered f ∈ d.columns ∧ (e.columnOf registered f).primaryKey = true := by
  have hmem : e.columnOf registered f ∈ d.columns.filter (·.primaryKey) := by
    rw [hd, Entity.filter_primaryKey]
    exact List.mem_map_of_mem hf
  exact List.mem_filter.mp hmem

/-- The cells of the key are those of the record's values. -/
theorem exists_cells {cells : List Cell} (h : d.MadeOf record cells)
    (hd : d = .ofEntity registered e isMapping) (hgives : e.GivesKey record)
    (hsound : Json.SoundFields depth record) :
    ∃ kept : Column → Cell, cells = d.columns.map kept
      ∧ ∀ f ∈ e.keyProperties, kept (e.columnOf registered f)
          = ((e.columnOf registered f).fieldOf record).keyCell := by
  obtain ⟨cell, hcell, rfl⟩ := h
  refine ⟨fun c => c.kept (cell c), rfl, fun f hf => ?_⟩
  exact Json.kept_of_keyValue (e.type_columnOf registered f) (e.comment_columnOf registered f)
    (sound_fieldOf hsound _) (hgives.fieldOf hf registered).2 (hcell _ (columnOf_mem hd hf).1)

/-- The texts of a row's key, from the record that the row was made of. -/
theorem keyTexts_eq {s : RowStore} {r : NumberedRow} (h : d.MadeOf record r.cells)
    (hd : d = .ofEntity registered e isMapping) (hgives : e.GivesKey record)
    (hsound : Json.SoundFields depth record) (hcolumns : s.columns = d.columns) :
    BulkEditor.keyTexts d (s.valuesOf r) = e.keyProperties.map fun f =>
      (f.1, (((e.columnOf registered f).fieldOf record).keyCell.toValue
        (e.columnOf registered f)).display) := by
  obtain ⟨kept, hcells, hkept⟩ := h.exists_cells hd hgives hsound
  have hfilter : d.columns.filter (·.primaryKey) = e.keyProperties.map (e.columnOf registered) := by
    rw [hd, Entity.filter_primaryKey]
  have hvalues : s.valuesOf r = d.columns.map fun c => (kept c).toValue c := by
    rw [RowStore.valuesOf, hcells, hcolumns, ← List.map_prod_left_eq_zip, List.map_map]
    rfl
  rw [BulkEditor.keyTexts, hvalues, ← List.map_prod_left_eq_zip, List.filter_map, List.map_map]
  show ((d.columns.filter (·.primaryKey)).map fun c => (c.name, ((kept c).toValue c).display)) = _
  rw [hfilter, List.map_map, List.map_inj_left]
  intro f hf
  rw [Function.comp_apply, hkept f hf, e.name_columnOf]

/-- The key of a row names the record that the row was made of. -/
theorem names {s : RowStore} {r : NumberedRow} (h : d.MadeOf record r.cells)
    (hd : d = .ofEntity registered e isMapping) (hgives : e.GivesKey record)
    (hsound : Json.SoundFields depth record) (hcolumns : s.columns = d.columns) {key : RecordKey}
    (hsorted : KeyList.Sorted key) (hperm : key.Perm (BulkEditor.keyTexts d (s.valuesOf r))) :
    e.Names record key := by
  rw [h.keyTexts_eq hd hgives hsound hcolumns] at hperm
  refine ⟨hsorted, ?_, fun f hf => ?_⟩
  · have hnames := hperm.map (·.1)
    rw [List.map_map] at hnames
    exact hnames
  · obtain ⟨hfield, hvalue⟩ := hgives.fieldOf hf registered
    exact ⟨_, _, hfield,
      KeyList.get?_of_mem hsorted.nodup_keys (hperm.mem_iff.mpr (List.mem_map_of_mem hf)),
      Json.namedBy_display _ (sound_fieldOf hsound _) hvalue⟩

/-- Rows that the row store does not tell apart have the same texts. -/
theorem keyTexts_congr {s : RowStore} {r r' : NumberedRow} (h : d.MadeOf record r.cells)
    (h' : d.MadeOf record' r'.cells) (hd : d = .ofEntity registered e isMapping)
    (hgives : e.GivesKey record) (hgives' : e.GivesKey record')
    (hsound : Json.SoundFields depth record) (hsound' : Json.SoundFields depth record')
    (hcolumns : s.columns = d.columns)
    (hkey : RowStore.keyOf d.columns r.cells = RowStore.keyOf d.columns r'.cells) :
    BulkEditor.keyTexts d (s.valuesOf r) = BulkEditor.keyTexts d (s.valuesOf r') := by
  rw [h.keyTexts_eq hd hgives hsound hcolumns, h'.keyTexts_eq hd hgives' hsound' hcolumns,
    List.map_inj_left]
  intro f hf
  obtain ⟨kept, hcells, hkept⟩ := h.exists_cells hd hgives hsound
  obtain ⟨kept', hcells', hkept'⟩ := h'.exists_cells hd hgives' hsound'
  have hstanding : (kept (e.columnOf registered f)).standing
      = (kept' (e.columnOf registered f)).standing := by
    obtain ⟨hmem, hprimary⟩ := columnOf_mem hd hf
    rw [hcells, hcells'] at hkey
    exact RowStore.standing_of_keyOf hkey hmem hprimary
  rw [hkept f hf, hkept' f hf] at hstanding
  rw [Json.keyCell_eq_of_standing (sound_fieldOf hsound _) (sound_fieldOf hsound' _)
    (hgives.fieldOf hf registered).2 (hgives'.fieldOf hf registered).2 hstanding]

end TableDefinition.MadeOf

end ShopTables
