import Mathlib.Data.List.GetD
import ShopTables.Proofs.RowStore.CellOrder
import ShopTables.Proofs.RowStore.Keys
import ShopTables.Proofs.Schema.Conversion

/-!
# Cells as columns keep them

A column keeps cells of one kind only (`Column.Keeps`). There nothing is converted to find out
whether two cells agree: they do exactly if they stand at one place (`agree_iff`); and reading a
cell and storing what was read changes nothing (`ofValue_toValue`). So the rows of a store have a
key that can be told from their values, and two of them have one key exactly if their key cells
stand at the same places (`hasKey_eq`).
-/

namespace ShopTables

namespace Binary64

/-! ### Integers as numbers -/

theorem isNaN_of_exponent_lt {n : Nat} (h : n < 2047) (negative : Bool)
    (fraction : Fin 4503599627370496) :
    (⟨negative, Fin.ofNat 2048 n, fraction⟩ : Binary64).isNaN = false := by
  have hexponent : (Fin.ofNat 2048 n).val ≠ 2047 := by
    rw [Fin.val_ofNat]
    omega
  rw [isNaN, beq_eq_false_iff_ne.mpr hexponent, Bool.false_and]

theorem isNaN_ofScaled (negative : Bool) (m : Nat) (q : Int) :
    (ofScaled negative m q).isNaN = false := by
  unfold ofScaled
  generalize (if m = 9007199254740992 then (4503599627370496, q + 1) else (m, q)) = p
  by_cases hsmall : m < 4503599627370496
  · rw [if_pos hsmall]
    rfl
  · rw [if_neg hsmall]
    dsimp only
    by_cases hlarge : 971 < p.2
    · rw [if_pos hlarge]
      rfl
    · rw [if_neg hlarge]
      exact isNaN_of_exponent_lt (by omega) _ _

theorem isNaN_ofInt (i : Int) : (ofInt i).isNaN = false := by
  unfold ofInt ofRatio
  split_ifs
  · rfl
  · exact isNaN_ofScaled _ _ _

end Binary64

/-! ### Cells in a column -/

namespace Column

/-- The cells that a column keeps. -/
def Keeps (c : Column) : Cell → Prop
  | .null => True
  | .integer i => c.storageType = .integer ∧ c.type = .boolean ∧ (i = 0 ∨ i = 1)
  | .real x => c.storageType = .real ∧ x.isNaN = false
  | .text _ => c.storageType = .text
  | .blob _ => c.storageType = .blob

variable {c : Column}

theorem storageType_of_keepsDocuments (h : c.keepsDocuments = true) : c.storageType = .blob := by
  unfold storageType
  split_ifs with hjson
  · rfl
  · rw [keepsDocuments, Bool.eq_false_iff.mpr hjson, Bool.false_or, beq_iff_eq] at h
    rw [h]

theorem isJson_of_not_keepsDocuments (h : c.keepsDocuments = false) : c.isJson = false :=
  (Bool.or_eq_false_iff.mp h).1

/-- A column that keeps no documents keeps its cells as its type says. -/
theorem storageType_of_not_keepsDocuments (hkeeps : c.keepsDocuments = false) :
    c.storageType = match c.type with
      | .text => .text
      | .json => .blob
      | .boolean => .integer
      | .double => .real :=
  if_neg (Bool.eq_false_iff.mp (isJson_of_not_keepsDocuments hkeeps))

theorem keeps_real {x : Binary64} (hstorage : c.storageType = .real) (hx : x.isNaN = false) :
    c.Keeps (StorageType.real.coerce (.real x)) := by
  -- a number without fraction becomes an integer, and then a number again
  show c.Keeps (Cell.real x).asInteger.asReal
  rw [Cell.asInteger]
  cases Cell.integerOf? x with
  | none => exact ⟨hstorage, hx⟩
  | some i => exact ⟨hstorage, Binary64.isNaN_ofInt i⟩

/-- What is stored of a value of the column's kind. -/
theorem keeps_of_holds {v : Value} (h : c.Holds v) :
    c.Keeps (c.storageType.coerce (Cell.ofValue v)) := by
  cases v with
  | null =>
    have hnull : ∀ storage : StorageType, storage.coerce .null = .null := by
      intro storage
      cases storage <;> rfl
    rw [Cell.ofValue, hnull]
    trivial
  | text s =>
    have hstorage : c.storageType = .text := by
      rw [storageType_of_not_keepsDocuments h.1, h.2]
    rw [hstorage]
    exact hstorage
  | boolean b =>
    have hstorage : c.storageType = .integer := by
      rw [storageType_of_not_keepsDocuments h.1, h.2]
    rw [hstorage]
    refine ⟨hstorage, h.2, ?_⟩
    cases b with
    | false => exact .inl rfl
    | true => exact .inr rfl
  | double x =>
    have hstorage : c.storageType = .real := by
      rw [storageType_of_not_keepsDocuments h.1, h.2]
    rw [hstorage, Cell.ofValue]
    split_ifs with hx
    · trivial
    · exact keeps_real hstorage (Bool.eq_false_iff.mpr hx)
  | json bytes =>
    have hstorage := storageType_of_keepsDocuments h
    rw [hstorage]
    exact hstorage

/-- A kept cell that is read and stored again is the same. -/
theorem ofValue_toValue {cell : Cell} (h : c.Keeps cell) :
    Cell.ofValue (cell.toValue c) = cell := by
  cases cell with
  | integer i =>
    obtain ⟨-, htype, rfl | rfl⟩ := h
    · rw [Cell.toValue, if_pos htype]
      rfl
    · rw [Cell.toValue, if_pos htype]
      rfl
  | real x => rw [Cell.toValue, Cell.ofValue, h.2, if_neg Bool.false_ne_true]
  | null => rfl
  | text s => rfl
  | blob bytes => rfl

theorem asText_of_keeps {cell : Cell} (h : c.Keeps cell) (hstorage : c.storageType = .text) :
    cell.asText = cell := by
  cases cell with
  | integer i => cases hstorage.symm.trans h.1
  | real x => cases hstorage.symm.trans h.1
  | _ => rfl

theorem asNumber_of_keeps {cell : Cell} (h : c.Keeps cell) (hstorage : c.storageType ≠ .text) :
    cell.asNumber = cell := by
  cases cell with
  | text s => exact absurd h hstorage
  | _ => rfl

/-- Cells that one column keeps agree exactly if they stand at the same place. -/
theorem agree_iff {a b : Cell} (ha : c.Keeps a) (hb : c.Keeps b) :
    c.storageType.agree a b = true ↔ a.standing = b.standing := by
  rw [← Cell.compareTo_eq_iff]
  -- what would be converted for the comparison is never kept
  unfold StorageType.agree
  rw [beq_iff_eq]
  cases hstorage : c.storageType with
  | blob => rfl
  | text =>
    dsimp only
    rw [asText_of_keeps ha hstorage, asText_of_keeps hb hstorage, ite_self, ite_self]
  | integer =>
    have htext : c.storageType ≠ .text := by simp [hstorage]
    dsimp only
    rw [asNumber_of_keeps ha htext, asNumber_of_keeps hb htext]
  | real =>
    have htext : c.storageType ≠ .text := by simp [hstorage]
    dsimp only
    rw [asNumber_of_keeps ha htext, asNumber_of_keeps hb htext]

end Column

namespace RowStore

/-! ### The cells of a row -/

/-- The cells of a row are such as the columns keep. -/
structure Kept (columns : List Column) (cells : List Cell) : Prop where
  length : cells.length = columns.length
  keeps : ∀ (i : Nat) (c : Column), columns[i]? = some c → c.Keeps (cells.getD i .null)

/-- The values that the columns give for the cells of a row. -/
theorem kept_keep {d : TableDefinition} {row : Row} (h : d.Fits row) :
    Kept d.columns (keep d.columns row) := by
  have hlength : (keep d.columns row).length = d.columns.length := by
    rw [keep, List.length_map, List.length_zip, h.length, Nat.min_self]
  refine ⟨hlength, fun i c hc => ?_⟩
  have hi : i < row.length := h.length ▸ (List.getElem?_eq_some_iff.mp hc).1
  have hzip : (d.columns.zip row)[i]? = some (c, row[i]) :=
    List.getElem?_zip_eq_some.mpr ⟨hc, List.getElem?_eq_getElem hi⟩
  rw [keep, List.getD_eq_getElem?_getD, List.getElem?_map, hzip]
  exact Column.keeps_of_holds (h.holds i c row[i] hc (List.getElem?_eq_getElem hi))

/-- The cells of a row can be told from its values. -/
theorem ofValue_valuesOf {s : RowStore} {r : NumberedRow} (h : Kept s.columns r.cells) :
    (s.valuesOf r).map Cell.ofValue = r.cells := by
  apply List.ext_getElem
  · rw [List.length_map, valuesOf, List.length_map, List.length_zip, h.length, Nat.min_self]
  · intro i _ hi
    have hc : i < s.columns.length := h.length ▸ hi
    have hkeeps := h.keeps i s.columns[i] (List.getElem?_eq_getElem hc)
    rw [List.getD_eq_getElem _ _ hi] at hkeeps
    simp only [valuesOf, List.getElem_map, List.getElem_zip]
    exact Column.ofValue_toValue hkeeps

/-- The places at which the key cells of a row stand. -/
structure Key where
  places : List Standing
  deriving DecidableEq

/-- The key of stored cells. -/
def keyOf (columns : List Column) (cells : List Cell) : Key :=
  ⟨(keyColumns columns).map fun (_, i) => (cells.getD i .null).standing⟩

/-- The key of a row of values. -/
def rowKey (columns : List Column) (row : Row) : Key :=
  keyOf columns (row.map Cell.ofValue)

/-- Does a row have the key of another? -/
def sameKey (columns : List Column) (row other : Row) : Bool :=
  hasKey columns row (other.map Cell.ofValue)

/-- Rows whose cells are kept have one key if their key cells stand at the same places. -/
theorem hasKey_eq {columns : List Column} {row : Row} {cells : List Cell}
    (hrow : Kept columns (row.map Cell.ofValue)) (hcells : Kept columns cells) :
    hasKey columns row cells = decide (keyOf columns cells = rowKey columns row) := by
  rw [Bool.eq_iff_iff, decide_eq_true_iff, hasKey, List.all_eq_true, rowKey, keyOf, keyOf,
    Key.mk.injEq, List.map_inj_left]
  refine forall₂_congr fun p hp => ?_
  have hplace : columns[p.2]? = some p.1 :=
    List.mem_zipIdx_iff_getElem?.mp ((keyColumns_sublist columns).subset hp)
  have hgiven : Cell.ofValue (row.getD p.2 .null) = (row.map Cell.ofValue).getD p.2 .null :=
    (List.getD_map (d := Value.null) row Cell.ofValue).symm
  show p.1.storageType.agree _ _ = true ↔ _
  rw [hgiven]
  exact Column.agree_iff (hcells.keeps _ _ hplace) (hrow.keeps _ _ hplace)

end RowStore

end ShopTables
