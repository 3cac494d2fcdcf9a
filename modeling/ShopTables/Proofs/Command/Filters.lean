import ShopTables.Command.Filter
import ShopTables.Proofs.Schema.Record

/-!
# What filters select

A filter names a column, or else there is a reason for which it is refused (`read_eq_error_iff`).
Of several filters the first that is refused decides (`readAll_eq_error_iff`). Filters for values
that columns are to show, however these values are written, select the rows that show all of them
(`exists_readAll_written`).
-/

namespace ShopTables

namespace TableDefinition

/-- The cells of a row as text, each with the name of its column. -/
def texts (d : TableDefinition) (row : Row) : List (String × String) :=
  (d.columns.zip row).map fun (c, v) => (c.name, v.display)

/-- Can the column be named in a filter? An equals sign would end its name, and blanks around it are
not read. -/
structure Filterable (d : TableDefinition) (column : String) : Prop where
  mem : column ∈ d.columns.map (·.name)
  plain : '=' ∉ column.toList
  trimmed : Text.trim column.toList = column.toList

end TableDefinition

namespace Filter

/-- The filter for a column that is to show a value. -/
def written (p : String × String) : String := p.1 ++ "=" ++ p.2

/-- Why a filter is refused. -/
inductive Refused (d : TableDefinition) (s : String) : FilterError → Prop
  | malformed (h : '=' ∉ s.toList) : Refused d s (.malformed s)
  | unknown {column value : List Char} (hs : s.toList = column ++ '=' :: value)
      (hplain : '=' ∉ column)
      (hnone : ∀ c ∈ d.columns, c.name ≠ String.ofList (Text.trim column)) :
      Refused d s (.unknownColumn (String.ofList (Text.trim column)) d.name)

/-! ### The first equals sign -/

theorem split?_eq_none_iff {cs : List Char} : split? cs = none ↔ '=' ∉ cs := by
  induction cs with
  | nil => simp [split?]
  | cons c cs ih =>
    rw [split?]
    by_cases hc : c = '='
    · simp [hc]
    · rw [if_neg hc, Option.map_eq_none_iff, ih, List.mem_cons, not_or]
      exact ⟨fun h => ⟨Ne.symm hc, h⟩, And.right⟩

theorem split?_append {column : List Char} (h : '=' ∉ column) (value : List Char) :
    split? (column ++ '=' :: value) = some (column, value) := by
  induction column with
  | nil => rfl
  | cons c column ih =>
    obtain ⟨hc, hrest⟩ := not_or.mp (List.mem_cons.not.mp h)
    rw [List.cons_append, split?, if_neg (Ne.symm hc), ih hrest, Option.map_some]

theorem eq_of_split?_eq_some {cs column value : List Char} (h : split? cs = some (column, value)) :
    cs = column ++ '=' :: value ∧ '=' ∉ column := by
  induction cs generalizing column with
  | nil => cases h
  | cons c cs ih =>
    rw [split?] at h
    by_cases hc : c = '='
    · rw [if_pos hc] at h
      obtain ⟨rfl, rfl⟩ := Prod.mk.inj (Option.some.inj h)
      exact ⟨by rw [hc, List.nil_append], List.not_mem_nil⟩
    · rw [if_neg hc] at h
      obtain ⟨⟨column', value'⟩, hsplit, hpair⟩ := Option.map_eq_some_iff.mp h
      obtain ⟨rfl, rfl⟩ := Prod.mk.inj hpair
      obtain ⟨rfl, hplain⟩ := ih hsplit
      exact ⟨rfl, List.mem_cons.not.mpr (not_or.mpr ⟨Ne.symm hc, hplain⟩)⟩

/-! ### Reading filters -/

variable {d : TableDefinition}

/-- A filter is refused for just these reasons. -/
theorem read_eq_error_iff {s : String} {e : FilterError} :
    read d s = .error e ↔ Refused d s e := by
  constructor
  · intro h
    rw [read] at h
    cases hsplit : split? s.toList with
    | none =>
      rw [hsplit] at h
      obtain rfl := Except.error.inj h
      exact .malformed (split?_eq_none_iff.mp hsplit)
    | some p =>
      obtain ⟨hs, hplain⟩ := eq_of_split?_eq_some hsplit
      rw [hsplit] at h
      dsimp only at h
      cases hindex : d.indexOf (String.ofList (Text.trim p.1)) with
      | none =>
        rw [hindex] at h
        obtain rfl := Except.error.inj h
        exact .unknown hs hplain (TableDefinition.indexOf_eq_none hindex)
      | some i =>
        rw [hindex] at h
        cases h
  · intro h
    cases h with
    | malformed hnone => rw [read, split?_eq_none_iff.mpr hnone]
    | @unknown column value hs hplain hnone =>
      rw [read, hs, split?_append hplain]
      dsimp only
      cases hindex : d.indexOf (String.ofList (Text.trim column)) with
      | none => rfl
      | some i =>
        obtain ⟨c, hc, hname⟩ := TableDefinition.indexOf_eq_some hindex
        exact absurd hname (hnone c (List.mem_of_getElem? hc))

/-- Of several filters the first that is refused is reported. -/
theorem readAll_eq_error_iff {filters : List String} {e : FilterError} :
    readAll d filters = .error e ↔ ∃ before bad after, filters = before ++ bad :: after
      ∧ (∀ f ∈ before, ∀ e', ¬ Refused d f e') ∧ Refused d bad e := by
  have hread : ∀ f, (∃ x, read d f = .ok x) ↔ ∀ e', ¬ Refused d f e' := by
    intro f
    constructor
    · rintro ⟨x, hx⟩ e' he'
      cases hx.symm.trans (read_eq_error_iff.mpr he')
    · intro hnone
      cases h : read d f with
      | ok x => exact ⟨x, rfl⟩
      | error e' => exact absurd (read_eq_error_iff.mp h) (hnone e')
  rw [readAll, mapM_eq_error_iff]
  simp only [hread, read_eq_error_iff]

/-- A filter for a value is read as it is meant. -/
theorem exists_read_written {p : String × String} (h : d.Filterable p.1) :
    ∃ i c, d.columns[i]? = some c ∧ c.name = p.1 ∧ read d (written p) = .ok ⟨i, p.2⟩ := by
  have hsplit : split? (written p).toList = some (p.1.toList, p.2.toList) := by
    rw [written, String.toList_append, String.toList_append, List.append_assoc]
    exact split?_append h.plain p.2.toList
  cases hindex : d.indexOf p.1 with
  | none =>
    obtain ⟨c, hc, hname⟩ := List.mem_map.mp h.mem
    exact absurd hname (TableDefinition.indexOf_eq_none hindex c hc)
  | some i =>
    obtain ⟨c, hc, hname⟩ := TableDefinition.indexOf_eq_some hindex
    refine ⟨i, c, hc, hname, ?_⟩
    rw [read, hsplit]
    dsimp only
    rw [h.trimmed, String.ofList_toList, hindex]
    simp only [String.ofList_toList]

/-! ### Rows that pass -/

/-- A row passes if it shows the value in the column. -/
theorem passes_iff {row : Row} {p : String × String} {i : Nat} {c : Column}
    (hnames : (d.columns.map (·.name)).Nodup) (hwide : row.length = d.columns.length)
    (hc : d.columns[i]? = some c) (hname : c.name = p.1) :
    passes ⟨i, p.2⟩ row = true ↔ p ∈ d.texts row := by
  obtain ⟨hi, rfl⟩ := List.getElem?_eq_some_iff.mp hc
  have hrow : i < row.length := hwide ▸ hi
  rw [passes, List.getElem?_eq_getElem hrow]
  dsimp only
  rw [beq_iff_eq, TableDefinition.texts, List.mem_map]
  constructor
  · intro hshown
    exact ⟨(d.columns[i], row[i]), List.mem_iff_getElem.mpr ⟨i, by simpa [hwide] using hi, by simp⟩,
      Prod.ext hname hshown⟩
  · rintro ⟨⟨c, v⟩, hmem, rfl⟩
    obtain ⟨j, hj, hpair⟩ := List.mem_iff_getElem.mp hmem
    rw [List.getElem_zip] at hpair
    obtain ⟨rfl, rfl⟩ := Prod.mk.inj hpair
    have hj' : j < d.columns.length := by
      rw [List.length_zip] at hj
      omega
    -- no other column has the name
    obtain rfl : i = j := by
      refine (List.getElem?_inj (by simpa using hi) hnames).mp ?_
      rw [List.getElem?_map, List.getElem?_map, hc, List.getElem?_eq_getElem hj', Option.map_some,
        Option.map_some, hname]
    rfl

/-- Filters for values are read, and select the rows that show all the values. -/
theorem exists_readAll_written (wanted : List (String × String))
    (h : ∀ p ∈ wanted, d.Filterable p.1) :
    ∃ filters, readAll d (wanted.map written) = .ok filters
      ∧ ((d.columns.map (·.name)).Nodup → ∀ row : Row, row.length = d.columns.length →
        (allPass filters row = true ↔ wanted ⊆ d.texts row)) := by
  induction wanted with
  | nil => exact ⟨[], rfl, fun _ row _ => ⟨fun _ => List.nil_subset _, fun _ => rfl⟩⟩
  | cons p wanted ih =>
    obtain ⟨hp, hwanted⟩ := List.forall_mem_cons.mp h
    obtain ⟨i, c, hc, hname, hread⟩ := exists_read_written hp
    obtain ⟨filters, hreads, hpass⟩ := ih hwanted
    refine ⟨⟨i, p.2⟩ :: filters, ?_, fun hnames row hwide => ?_⟩
    · rw [readAll] at hreads ⊢
      rw [List.map_cons, List.mapM_cons, hread, hreads]
      rfl
    · rw [List.cons_subset, ← passes_iff hnames hwide hc hname, ← hpass hnames row hwide, allPass,
        allPass, List.all_cons, Bool.and_eq_true]

end Filter

end ShopTables
