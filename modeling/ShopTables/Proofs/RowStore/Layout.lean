import Mathlib.Data.List.Nodup
import ShopTables.RowStore.Basic

/-!
# The layouts a row store accepts

A table can be created just when neither its name nor a column's has a NUL, its name is not
reserved, there are at most `maxColumns` columns, and no two of them have the same name but for
ASCII case (`fault?_eq_none`). In particular each column is known by its name
(`nodup_names_of_create`).
-/

namespace ShopTables.RowStore

/-- The names by which columns are told apart. -/
def smallNames (columns : List Column) : List String := columns.map fun c => Text.lowerAscii c.name

@[simp] theorem smallNames_cons (c : Column) (cs : List Column) :
    smallNames (c :: cs) = Text.lowerAscii c.name :: smallNames cs := rfl

/-- No two of the columns have the same small name, and none has one of the names `seen`. -/
def NewNames (seen : List String) (columns : List Column) : Prop :=
  (smallNames columns).Nodup ∧ ∀ name ∈ smallNames columns, name ∉ seen

theorem newNames_nil (seen : List String) : NewNames seen [] := ⟨List.nodup_nil, nofun⟩

theorem newNames_start {columns : List Column} :
    NewNames [] columns ↔ (smallNames columns).Nodup := by
  simp [NewNames]

theorem newNames_cons {seen : List String} {c : Column} {cs : List Column} :
    NewNames seen (c :: cs)
      ↔ Text.lowerAscii c.name ∉ seen ∧ NewNames (Text.lowerAscii c.name :: seen) cs := by
  simp only [NewNames, List.mem_cons, forall_eq_or_imp, smallNames_cons, List.nodup_cons, not_or]
  constructor
  · rintro ⟨⟨hfirst, hnodup⟩, hseen, hnew⟩
    exact ⟨hseen, hnodup, fun name h => ⟨fun e => hfirst (e ▸ h), hnew name h⟩⟩
  · rintro ⟨hseen, hnodup, hnew⟩
    exact ⟨⟨fun h => (hnew _ h).1 rfl, hnodup⟩, hseen, fun name h => (hnew name h).2⟩

/-- The columns are gone through with the small names `seen` before them. -/
theorem faultOfColumns?_eq_none {table sql : String} {offset : Nat} {seen : List String}
    {columns : List Column} (hseen : seen.length ≤ maxColumns) :
    faultOfColumns? table sql offset seen columns = none ↔
      (∀ c ∈ columns, nul ∉ c.name.toList) ∧ seen.length + columns.length ≤ maxColumns
        ∧ NewNames seen columns := by
  induction columns generalizing offset seen with
  | nil => simp [faultOfColumns?, newNames_nil, hseen]
  | cons c cs ih =>
    rw [faultOfColumns?, newNames_cons]
    split_ifs with hnul hwide hdup
    · simp only [List.contains_iff_mem] at hnul
      simp [hnul]
    · simp only [List.length_cons, false_iff, not_and]
      intro _ hlen
      omega
    · simp only [List.contains_iff_mem] at hdup
      simp [hdup]
    · simp only [List.contains_iff_mem] at hnul hdup
      rw [ih (by rw [List.length_cons]; omega)]
      simp only [List.mem_cons, forall_eq_or_imp, List.length_cons]
      constructor
      · rintro ⟨hnuls, hlen, hnew⟩
        exact ⟨⟨hnul, hnuls⟩, by omega, hdup, hnew⟩
      · rintro ⟨⟨-, hnuls⟩, hlen, -, hnew⟩
        exact ⟨hnuls, by omega, hnew⟩

/-- Of columns that are not new, the first that repeats a name is reported. -/
theorem faultOfColumns?_of_repeated {table sql : String} {offset : Nat} {seen : List String}
    {columns : List Column} (hnul : ∀ c ∈ columns, nul ∉ c.name.toList)
    (hwide : seen.length + columns.length ≤ maxColumns) (hrepeated : ¬ NewNames seen columns) :
    ∃ before c after, columns = before ++ c :: after ∧ NewNames seen before
      ∧ Text.lowerAscii c.name ∈ seen ++ smallNames before
      ∧ faultOfColumns? table sql offset seen columns = some (.duplicateColumn c.name) := by
  induction columns generalizing offset seen with
  | nil => exact absurd (newNames_nil seen) hrepeated
  | cons c cs ih =>
    rw [List.length_cons] at hwide
    have hfirst : ¬ c.name.toList.contains nul = true := by
      rw [List.contains_iff_mem]
      exact hnul c List.mem_cons_self
    rw [faultOfColumns?, if_neg hfirst, if_neg (by omega)]
    by_cases hseen : Text.lowerAscii c.name ∈ seen
    · refine ⟨[], c, cs, rfl, newNames_nil seen, List.mem_append_left _ hseen, ?_⟩
      rw [if_pos (List.contains_iff_mem.mpr hseen)]
    · rw [if_neg (by rwa [List.contains_iff_mem])]
      have hwide' : (Text.lowerAscii c.name :: seen).length + cs.length ≤ maxColumns := by
        rw [List.length_cons]
        omega
      obtain ⟨before, c', after, rfl, hnew, hmem, hfault⟩ :=
        ih (fun c' hc' => hnul c' (List.mem_cons_of_mem c hc')) hwide'
          fun hnew => hrepeated (newNames_cons.mpr ⟨hseen, hnew⟩)
      refine ⟨c :: before, c', after, rfl, newNames_cons.mpr ⟨hseen, hnew⟩, ?_, hfault⟩
      exact List.perm_middle.symm.subset hmem

/-- Which layouts are accepted. -/
theorem fault?_eq_none {table : String} {columns : List Column} :
    fault? table columns = none ↔
      nul ∉ table.toList ∧ isReserved table = false ∧ (∀ c ∈ columns, nul ∉ c.name.toList)
        ∧ columns.length ≤ maxColumns ∧ (smallNames columns).Nodup := by
  unfold fault?
  split_ifs with hnul hreserved
  · simp only [List.contains_iff_mem] at hnul
    simp [hnul]
  · simp [hreserved]
  · simp only [List.contains_iff_mem] at hnul
    rw [faultOfColumns?_eq_none (by simp), newNames_start]
    simp [hnul, hreserved]

/-- What a store is that was just created. -/
theorem create_eq_ok {name : String} {columns : List Column} {partitions : Nat} {s : RowStore} :
    create name columns partitions = .ok s ↔
      fault? name columns = none
        ∧ s = { name, columns, partitionCount := max partitions 1,
                partitionCount_pos := Nat.lt_of_lt_of_le Nat.one_pos (Nat.le_max_right _ _),
                stored := [], savepoints := [] } := by
  unfold create
  split
  · next e he => simp [he]
  · next he => simp [he, eq_comm]

/-- Each column of a store is known by its name. -/
theorem nodup_names_of_create {name : String} {columns : List Column} {partitions : Nat}
    {s : RowStore} (h : create name columns partitions = .ok s) :
    (columns.map (·.name)).Nodup := by
  have hsmall : (smallNames columns).Nodup := (fault?_eq_none.mp (create_eq_ok.mp h).1).2.2.2.2
  have hmap : smallNames columns = (columns.map (·.name)).map Text.lowerAscii := by
    rw [smallNames, List.map_map]
    rfl
  exact List.Nodup.of_map _ (hmap ▸ hsmall)

end ShopTables.RowStore
