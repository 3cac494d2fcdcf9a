import Mathlib.Tactic.SplitIfs
import ShopTables.Schema.Conversion

/-!
# Rows fit their columns

A conversion gives a value of the kind its column holds (`Column.holds_of_convert`), and so every
row made of a record has one value for each column, of that column's kind
(`TableDefinition.fits_of_rowOf`).
-/

namespace ShopTables

/-- The values of a column's kind. An empty cell is of every kind. -/
def Column.Holds (c : Column) : Value → Prop
  | .null => True
  | .text _ => c.keepsDocuments = false ∧ c.type = .text
  | .boolean _ => c.keepsDocuments = false ∧ c.type = .boolean
  | .double _ => c.keepsDocuments = false ∧ c.type = .double
  | .json _ => c.keepsDocuments = true

namespace Column

theorem holds_of_scalarCell? {c : Column} {v : Json} {value : Value}
    (hkeeps : c.keepsDocuments = false) (h : c.scalarCell? v = some value) : c.Holds value := by
  unfold scalarCell? at h
  cases htype : c.type with
  | text =>
    rw [htype] at h
    obtain rfl := Option.some.inj h
    cases v <;> exact ⟨hkeeps, htype⟩
  | boolean =>
    rw [htype] at h
    cases v with
    | bool b =>
      obtain rfl := Option.some.inj h
      exact ⟨hkeeps, htype⟩
    | number n =>
      obtain rfl := Option.some.inj h
      exact ⟨hkeeps, htype⟩
    | string s =>
      obtain ⟨b, -, rfl⟩ := Option.map_eq_some_iff.mp h
      exact ⟨hkeeps, htype⟩
    | null => cases h
    | array items => cases h
    | object fields => cases h
  | double =>
    rw [htype] at h
    cases v with
    | bool b =>
      obtain rfl := Option.some.inj h
      exact ⟨hkeeps, htype⟩
    | number n =>
      obtain rfl := Option.some.inj h
      exact ⟨hkeeps, htype⟩
    | string s =>
      obtain ⟨x, -, rfl⟩ := Option.map_eq_some_iff.mp h
      exact ⟨hkeeps, htype⟩
    | null => cases h
    | array items => cases h
    | object fields => cases h
  | json =>
    rw [htype] at h
    cases h

/-- A conversion gives a value of the column's kind. -/
theorem holds_of_convert {c : Column} {v : Json} {value : Value} (h : c.convert v = .ok value) :
    c.Holds value := by
  unfold convert at h
  split_ifs at h with hnull hkeeps
  · obtain rfl := Except.ok.inj h
    exact trivial
  · obtain rfl := Except.ok.inj h
    exact hkeeps
  · cases hcell : c.scalarCell? v with
    | none =>
      rw [hcell] at h
      cases h
    | some cell =>
      rw [hcell] at h
      obtain rfl := Except.ok.inj h
      exact holds_of_scalarCell? (Bool.not_eq_true _ ▸ hkeeps) hcell

end Column

namespace TableDefinition

/-- A row has one value for each column, of the column's kind. -/
structure Fits (d : TableDefinition) (row : Row) : Prop where
  length : row.length = d.columns.length
  holds : ∀ (i : Nat) (c : Column) (v : Value), d.columns[i]? = some c → row[i]? = some v →
    c.Holds v

theorem fits_nulls (d : TableDefinition) : d.Fits (Row.nulls d.columns.length) := by
  refine ⟨Row.length_nulls _, fun i c v _ hv => ?_⟩
  rw [List.eq_of_mem_replicate (List.mem_of_getElem? hv)]
  exact trivial

theorem fits_of_place {d : TableDefinition} {row row' : Row} {field : String × Json}
    (hrow : d.Fits row) (h : d.place row field = .ok row') : d.Fits row' := by
  unfold place at h
  cases hindex : d.indexOf field.1 with
  | none =>
    rw [hindex] at h
    obtain rfl := Except.ok.inj h
    exact hrow
  | some i =>
    rw [hindex] at h
    cases hcolumn : d.columns[i]? with
    | none =>
      simp only [hcolumn] at h
      obtain rfl := Except.ok.inj h
      exact hrow
    | some c =>
      simp only [hcolumn] at h
      cases hvalue : c.convert field.2 with
      | error m =>
        rw [hvalue] at h
        cases h
      | ok value =>
        rw [hvalue] at h
        obtain rfl := Except.ok.inj h
        refine ⟨by rw [List.length_set, hrow.length], fun j c' v hc' hv => ?_⟩
        by_cases hij : i = j
        · subst hij
          rw [hcolumn] at hc'
          obtain rfl := Option.some.inj hc'
          have hlt : i < row.length := hrow.length ▸ (List.getElem?_eq_some_iff.mp hcolumn).1
          rw [List.getElem?_set_self hlt] at hv
          obtain rfl := Option.some.inj hv
          exact Column.holds_of_convert hvalue
        · rw [List.getElem?_set_ne hij] at hv
          exact hrow.holds j c' v hc' hv

/-- The row of a record fits the columns. -/
theorem fits_of_rowOf {d : TableDefinition} {record : KeyList Json} {row : Row}
    (h : d.rowOf record = .ok row) : d.Fits row := by
  have hfold : ∀ (fields : List (String × Json)) (row₀ row : Row), d.Fits row₀ →
      fields.foldlM d.place row₀ = .ok row → d.Fits row := by
    intro fields
    induction fields with
    | nil =>
      intro row₀ row hrow h
      obtain rfl := Except.ok.inj h
      exact hrow
    | cons field fields ih =>
      intro row₀ row hrow h
      rw [List.foldlM_cons] at h
      cases hplace : d.place row₀ field with
      | error m =>
        rw [hplace] at h
        cases h
      | ok row₁ =>
        rw [hplace] at h
        exact ih row₁ row (fits_of_place hrow hplace) h
  exact hfold record _ row (fits_nulls d) h

end TableDefinition

end ShopTables
