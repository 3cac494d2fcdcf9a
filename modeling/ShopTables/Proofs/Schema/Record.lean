import Mathlib.Data.List.Nodup
import Mathlib.Tactic.Tauto
import ShopTables.Proofs.Fallible
import ShopTables.Proofs.KeyList
import ShopTables.Schema.Conversion

/-!
# Records, column by column

The fields of a record are put into its row one after the other, in whatever order their names
stand. As long as each name has one column and one field, the row is what its columns make of the
record one by one, each of its own field (`rowOf_eq`).
-/

namespace ShopTables

/-- What a record has for a column: the field of that name, and null if there is none. -/
def Column.fieldOf (c : Column) (record : KeyList Json) : Json := (record.get? c.name).getD .null

namespace Column

variable {c : Column} {record : KeyList Json}

theorem fieldOf_of_mem {v : Json} (hkeys : (KeyList.keys record).Nodup)
    (h : (c.name, v) ∈ record) : c.fieldOf record = v := by
  rw [fieldOf, KeyList.get?_of_mem hkeys h, Option.getD_some]

theorem fieldOf_of_not_mem (h : c.name ∉ KeyList.keys record) : c.fieldOf record = .null := by
  rw [fieldOf, KeyList.get?_eq_none_iff.mpr h, Option.getD_none]

end Column

namespace TableDefinition

variable {d : TableDefinition}

theorem indexOf_eq_none {name : String} (h : d.indexOf name = none) :
    ∀ c ∈ d.columns, c.name ≠ name := by
  intro c hc
  have hne := List.findIdx?_eq_none_iff.mp h c hc
  exact beq_eq_false_iff_ne.mp hne

theorem indexOf_eq_some {name : String} {i : Nat} (h : d.indexOf name = some i) :
    ∃ c, d.columns[i]? = some c ∧ c.name = name := by
  obtain ⟨hi, hname, -⟩ := List.findIdx?_eq_some_iff_getElem.mp h
  exact ⟨d.columns[i], List.getElem?_eq_getElem hi, beq_iff_eq.mp hname⟩

/-- One field changes the value of its own column and no other. -/
theorem place_eq {cell f : Column → Value} {key : String} {v : Json}
    (hnames : (d.columns.map (·.name)).Nodup)
    (hconvert : ∀ c ∈ d.columns, c.name = key → c.convert v = .ok (cell c)) :
    d.place (d.columns.map f) (key, v)
      = .ok (d.columns.map fun c => if c.name = key then cell c else f c) := by
  rw [place]
  cases hindex : d.indexOf key with
  | none =>
    show Except.ok (d.columns.map f) = _
    rw [Except.ok.injEq, List.map_inj_left]
    intro c hc
    exact (if_neg (indexOf_eq_none hindex c hc)).symm
  | some i =>
    obtain ⟨c, hc, rfl⟩ := indexOf_eq_some hindex
    simp only [hc]
    rw [hconvert c (List.mem_of_getElem? hc) rfl]
    show Except.ok ((d.columns.map f).set i (cell c)) = _
    rw [Except.ok.injEq]
    apply List.ext_getElem
    · rw [List.length_set, List.length_map, List.length_map]
    · intro j hj hj'
      have hlt : j < d.columns.length := by simpa using hj'
      rw [List.getElem_map, List.getElem_set]
      by_cases hij : i = j
      · subst hij
        rw [List.getElem?_eq_getElem hlt] at hc
        obtain rfl := Option.some.inj hc
        rw [if_pos rfl, if_pos rfl]
      · -- another place has another name
        obtain ⟨hi, rfl⟩ := List.getElem?_eq_some_iff.mp hc
        have hne : d.columns[j].name ≠ d.columns[i].name := by
          intro hname
          have hsame : d.columns[j] = d.columns[i] :=
            List.inj_on_of_nodup_map hnames (List.getElem_mem hlt) (List.getElem_mem hi) hname
          exact hij ((List.Nodup.getElem_inj_iff (List.Nodup.of_map _ hnames)).mp hsame).symm
        rw [if_neg hij, if_neg hne, List.getElem_map]

/-- The fields put into a row one after the other. -/
theorem foldlM_place {cell : Column → Value} (hnames : (d.columns.map (·.name)).Nodup)
    (fields : List (String × Json)) (f : Column → Value)
    (hconvert : ∀ c ∈ d.columns, ∀ v, (c.name, v) ∈ fields → c.convert v = .ok (cell c)) :
    fields.foldlM d.place (d.columns.map f)
      = .ok (d.columns.map fun c => if c.name ∈ fields.map (·.1) then cell c else f c) := by
  -- a column that got its value keeps it, as all fields of its name would give the same
  induction fields generalizing f with
  | nil => simp [pure, Except.pure]
  | cons field fields ih =>
    obtain ⟨key, v⟩ := field
    have hplace : d.place (d.columns.map f) (key, v)
        = .ok (d.columns.map fun c => if c.name = key then cell c else f c) :=
      place_eq hnames fun c hc hname => hconvert c hc v (hname ▸ List.mem_cons_self)
    rw [List.foldlM_cons, hplace]
    show fields.foldlM d.place _ = _
    rw [ih _ fun c hc w hw => hconvert c hc w (List.mem_cons_of_mem _ hw), Except.ok.injEq,
      List.map_inj_left]
    intro c _
    simp only [List.map_cons, List.mem_cons]
    split_ifs <;> tauto

/-- The row of a record has what each column makes of its own field. -/
theorem rowOf_eq {cell : Column → Value} {record : KeyList Json}
    (hnames : (d.columns.map (·.name)).Nodup) (hkeys : (KeyList.keys record).Nodup)
    (hconvert : ∀ c ∈ d.columns, c.convert (c.fieldOf record) = .ok (cell c)) :
    d.rowOf record = .ok (d.columns.map cell) := by
  have hnulls : Row.nulls d.columns.length = d.columns.map fun _ => Value.null :=
    (List.map_const' ..).symm
  have hfold := foldlM_place hnames record (fun _ => Value.null) fun c hc v hv => by
    rw [← Column.fieldOf_of_mem hkeys hv]
    exact hconvert c hc
  rw [rowOf, hnulls, hfold, Except.ok.injEq, List.map_inj_left]
  intro c hc
  split_ifs with hfield
  · rfl
  · -- without a field the column was asked about null, which is the empty cell
    have hnull := hconvert c hc
    rw [Column.fieldOf_of_not_mem hfield] at hnull
    exact Except.ok.inj hnull

/-- A record with a row has for each column a value that can be converted. -/
theorem exists_convert_of_rowOf {record : KeyList Json} {row : Row}
    (hnames : (d.columns.map (·.name)).Nodup) (h : d.rowOf record = .ok row) {c : Column}
    (hc : c ∈ d.columns) : ∃ value, c.convert (c.fieldOf record) = .ok value := by
  rw [Column.fieldOf]
  cases hfield : record.get? c.name with
  | none => exact ⟨.null, rfl⟩
  | some v =>
    obtain ⟨given, placed, hplace⟩ := exists_ok_of_foldlM h (KeyList.mem_of_get? hfield)
    rw [place] at hplace
    cases hindex : d.indexOf c.name with
    | none => exact absurd rfl (indexOf_eq_none hindex c hc)
    | some i =>
      obtain ⟨c', hc', hname⟩ := indexOf_eq_some hindex
      obtain rfl : c' = c :=
        List.inj_on_of_nodup_map hnames (List.mem_of_getElem? hc') hc hname
      simp only [hindex, hc'] at hplace
      cases hconvert : c'.convert v with
      | error m =>
        rw [hconvert] at hplace
        cases hplace
      | ok value => exact ⟨value, hconvert⟩

end TableDefinition

end ShopTables
