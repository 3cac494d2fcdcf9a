import Mathlib.Data.Int.CardIntervalMod
import ShopTables.Proofs.RowStore.Changes
import ShopTables.Proofs.RowStore.ShownCells

/-!
# What partitions give back

```
    rows that were added  ⊇  stored rows  =  partition 0 ⊎ partition 1 ⊎ … ⊎ partition (p - 1)
```

As long as no column is called `rowid`, each stored row has one partition, and a partition gives
its rows in insertion order, whatever calls were made before (`partitions_cover`). When rows were
only ever added, their numbers count them (`Counted`), so they are dealt out to the partitions in
turn. A row whose values are of the types of its columns comes back as it was (`returned_eq`).
-/

namespace ShopTables

/-! ### Values of a column's type -/

/-- The values of a column's own type that are kept as they are. -/
def Column.Typed (c : Column) : Value → Prop
  | .null => True
  | .text _ => c.type = .text
  | .boolean _ => c.type = .boolean
  | .double x => c.type = .double ∧ x.isNaN = false ∧ x ≠ .zero true
  | .json _ => c.keepsDocuments = true

/-- Whatever else a column may be, it keeps its cells as its type says or as they are. -/
theorem Column.storageType_cases (c : Column) :
    c.storageType = .blob ∨ c.storageType = match c.type with
      | .text => .text
      | .json => .blob
      | .boolean => .integer
      | .double => .real := by
  unfold storageType
  split_ifs
  · exact .inl rfl
  · exact .inr rfl

theorem Column.toValue_kept {c : Column} {v : Value} (h : c.Typed v) : (c.kept v).toValue c = v := by
  cases v with
  | null =>
    rw [kept_null]
    rfl
  | text s =>
    have hstorage := c.storageType_cases
    rw [show c.type = .text from h] at hstorage
    rcases hstorage with hstorage | hstorage
    · rw [kept, hstorage]
      rfl
    · rw [kept, hstorage]
      rfl
  | boolean b =>
    have hinteger : c.kept (.boolean b) = .integer (if b then 1 else 0) := by
      have hstorage := c.storageType_cases
      rw [show c.type = .boolean from h] at hstorage
      rcases hstorage with hstorage | hstorage
      · rw [kept, hstorage]
        rfl
      · rw [kept, hstorage]
        rfl
    rw [hinteger, Cell.toValue, if_pos (show c.type = .boolean from h)]
    cases b with
    | false => rfl
    | true => rfl
  | double x =>
    obtain ⟨htype, hnan, hzero⟩ := h
    have hreal : c.kept (.double x) = .real x := by
      have hstorage := c.storageType_cases
      rw [htype] at hstorage
      rw [kept, Cell.ofValue, if_neg (Bool.eq_false_iff.mp hnan)]
      rcases hstorage with hstorage | hstorage
      · rw [hstorage]
        rfl
      · rw [hstorage, StorageType.coerce_real hzero]
    rw [hreal]
    rfl
  | json bytes =>
    rw [kept, storageType_of_keepsDocuments h]
    rfl

namespace RowStore

/-- What comes back of a row that was added. -/
def returned (columns : List Column) (row : Row) : Row := readBack columns (keep columns row)

theorem returned_eq {columns : List Column} {row : Row} (h : List.Forall₂ Column.Typed columns row) :
    returned columns row = row := by
  induction h with
  | nil => rfl
  | @cons c v columns row hv _ ih =>
    have hcell : (c.kept v).toValue c = v := Column.toValue_kept hv
    have hcons : returned (c :: columns) (v :: row)
        = (c.kept v).toValue c :: returned columns row := rfl
    rw [hcons, hcell, ih]

/-! ### Places -/

/-- The rows of a list that stand at one place, in their order. -/
def atPlace (rows : List Row) (places : List Nat) (i : Nat) : List Row :=
  ((rows.zip places).filter fun q => q.2 = i).map (·.1)

theorem atPlace_map {α : Type} (value : α → Row) (place : α → Nat) (l : List α) (i : Nat) :
    atPlace (l.map value) (l.map place) i = (l.filter fun a => place a = i).map value := by
  rw [atPlace, List.zip_map', List.filter_map, List.map_map]
  rfl

theorem length_atPlace {rows : List Row} {places : List Nat} (h : places.length = rows.length)
    (i : Nat) : (atPlace rows places i).length = places.countP (· = i) := by
  have hcount : (rows.zip places).countP (fun q => q.2 = i)
      = ((rows.zip places).map (·.2)).countP (· = i) := by
    rw [List.countP_map]
    rfl
  rw [atPlace, List.length_map, ← List.countP_eq_length_filter, hcount,
    List.map_snd_zip (Nat.le_of_eq h)]

/-- How often each remainder comes up when one counts. -/
theorem countP_mod (n : Nat) {p i : Nat} (hi : i < p) :
    ((List.range n).map (· % p)).countP (· = i) = n / p + if i < n % p then 1 else 0 := by
  have hcount : ((List.range n).map (· % p)).countP (· = i) = n.count (· ≡ i [MOD p]) := by
    rw [List.countP_map]
    refine List.countP_congr fun k _ => ?_
    have hmod : k ≡ i [MOD p] ↔ k % p = i := by
      show k % p = i % p ↔ k % p = i
      rw [Nat.mod_eq_of_lt hi]
    rw [Function.comp_apply, decide_eq_true_iff, decide_eq_true_iff]
    exact hmod.symm
  rw [hcount, Nat.count_modEq_card _ (Nat.zero_lt_of_lt hi), Nat.mod_eq_of_lt hi]

/-! ### Stores to which rows were only added -/

/-- The rows of a store are those that were added, counted from one. -/
structure Counted (inserted : List Row) (s : RowStore) : Prop where
  closed : s.savepoints = []
  stored : contents s.stored = inserted.map (keep s.columns)
  numbers : s.stored.map (·.number) = List.range' 1 s.stored.length

section

variable {inserted : List Row} {s : RowStore}

theorem nextNumber_eq (h : s.stored.map (·.number) = List.range' 1 s.stored.length) :
    s.nextNumber = s.stored.length + 1 := by
  have hlast : s.stored.getLast?.map (·.number) = (List.range' 1 s.stored.length).getLast? := by
    rw [← h, List.getLast?_map]
  rw [List.getLast?_range'] at hlast
  unfold nextNumber
  cases hstored : s.stored.getLast? with
  | none =>
    rw [List.getLast?_eq_none_iff.mp hstored]
    rfl
  | some r =>
    rw [hstored] at hlast
    split_ifs at hlast with hempty
    · cases hlast
    · have hnumber : r.number = 1 + s.stored.length - 1 := Option.some.inj hlast
      show r.number + 1 = s.stored.length + 1
      omega

theorem numbers_push (h : s.stored.map (·.number) = List.range' 1 s.stored.length)
    (cells : List Cell) :
    (s.push cells).stored.map (·.number) = List.range' 1 (s.push cells).stored.length := by
  rw [push, List.map_append, h, List.length_append, nextNumber_eq h]
  show _ = List.range' 1 (s.stored.length + 1)
  rw [List.range'_1_concat, Nat.add_comm 1]
  rfl

theorem numbers_foldl_push (h : s.stored.map (·.number) = List.range' 1 s.stored.length)
    (added : List (List Cell)) :
    (added.foldl push s).stored.map (·.number)
      = List.range' 1 (added.foldl push s).stored.length := by
  induction added generalizing s with
  | nil => exact h
  | cons cells added ih => exact ih (numbers_push h cells)

theorem counted_of_create {table : String} {columns : List Column} {partitions : Nat}
    (h : create table columns partitions = .ok s) : Counted [] s := by
  obtain ⟨-, rfl⟩ := create_eq_ok.mp h
  exact ⟨rfl, rfl, rfl⟩

theorem Counted.insertAll (h : Counted inserted s) (rows : List Row) (d : LocalDeleter) :
    Counted
      (inserted ++ (StoreCall.insertAll rows).added ((StoreCall.insertAll rows).run (s, d)).1)
      ((StoreCall.insertAll rows).run (s, d)).2.1 := by
  obtain ⟨hclosed, hstored, hnumbers⟩ := h
  rw [StoreCall.run, insertAll_eq s rows hclosed]
  cases hadmits : rows.mapM (admitted s.name s.columns) with
  | error e =>
    show Counted (inserted ++ []) s
    rw [List.append_nil]
    exact ⟨hclosed, hstored, hnumbers⟩
  | ok cells =>
    obtain rfl := eq_map_keep_of_admitted hadmits
    show Counted (inserted ++ rows) ((rows.map (keep s.columns)).foldl push s)
    have hnext := numbers_foldl_push hnumbers (rows.map (keep s.columns))
    obtain ⟨new, hfold, hcells, -⟩ := foldl_push s (rows.map (keep s.columns))
    rw [hfold] at hnext ⊢
    refine ⟨hclosed, ?_, hnext⟩
    rw [contents, List.map_append, hcells, List.map_append, ← hstored, contents]

/-- If rows are only added, they stay counted. -/
theorem Counted.runShared {P : Type} [DecidableEq P] (h : Counted inserted s)
    (deleters : P → LocalDeleter) {calls : List (P × StoreCall)}
    (honly : ∀ call ∈ calls, ∃ rows, call.2 = .insertAll rows) :
    Counted (inserted ++ insertedBy calls (runAll StoreCall.runShared calls (s, deleters)).1)
      (runAll StoreCall.runShared calls (s, deleters)).2.1 := by
  induction calls generalizing inserted s deleters with
  | nil =>
    show Counted (inserted ++ []) s
    rw [List.append_nil]
    exact h
  | cons call calls ih =>
    obtain ⟨p, c⟩ := call
    obtain ⟨rows, rfl⟩ : ∃ rows, c = .insertAll rows := honly _ List.mem_cons_self
    have hcall : Counted _ (StoreCall.runShared (p, .insertAll rows) (s, deleters)).2.1 :=
      h.insertAll rows (deleters p)
    have hrest := ih hcall (StoreCall.runShared (p, .insertAll rows) (s, deleters)).2.2
      fun call hcall => honly call (List.mem_cons_of_mem _ hcall)
    rw [List.append_assoc] at hrest
    exact hrest

/-- The places of counted rows go round. -/
theorem Counted.places_eq (h : Counted inserted s) (p : Nat) :
    s.stored.map (fun r => (r.number - 1) % p) = (List.range s.stored.length).map (· % p) := by
  have hnumbers : s.stored.map (fun r => (r.number - 1) % p)
      = (s.stored.map (·.number)).map fun n => (n - 1) % p := by
    rw [List.map_map]
    rfl
  rw [hnumbers, h.numbers, List.range'_eq_map_range, List.map_map]
  refine List.map_congr_left fun k _ => ?_
  rw [Function.comp_apply, Nat.add_sub_cancel_left]

end

/-! ### Partitions -/

theorem partitionRows_eq_atPlace {s : RowStore} (h : NumbersShown s.columns)
    (hn : Numbered s.stored) (i : Nat) :
    s.partitionRows i = atPlace (s.stored.map s.valuesOf)
      (s.stored.map fun r => (r.number - 1) % s.partitionCount) i := by
  rw [partitionRows_eq h hn, atPlace_map, storedIn]

theorem map_valuesOf (s : RowStore) :
    s.stored.map s.valuesOf = (contents s.stored).map (readBack s.columns) := by
  rw [contents, List.map_map]
  rfl

theorem length_atPlace_places {rows : List Row} {p i j : Nat} (hi : i < p) (hj : j < p) :
    (atPlace rows ((List.range rows.length).map (· % p)) i).length
      ≤ (atPlace rows ((List.range rows.length).map (· % p)) j).length + 1 := by
  have hlength : ((List.range rows.length).map (· % p)).length = rows.length := by
    rw [List.length_map, List.length_range]
  rw [length_atPlace hlength, length_atPlace hlength, countP_mod _ hi, countP_mod _ hj]
  split_ifs <;> omega

/-- Partitions cover a store. After any calls of any parties the stored rows are some of those
that were added, in that order, each as `returned` says; each of them has one place below the
partition count, and a partition gives the rows of its place in that order, so one past the last
gives none. If rows were only added, all of them are stored, the places go round, and no partition
has more than a row more than another. A row of values of its columns' types is returned as it
was. -/
theorem partitions_cover {P : Type} [DecidableEq P] {table : String} {columns : List Column}
    {partitions : Nat} {s : RowStore} (hcreate : create table columns partitions = .ok s)
    (hshown : NumbersShown columns) (calls : List (P × StoreCall)) :
    let run := runAll StoreCall.runShared calls (s, fun _ => {})
    let store := run.2.1
    let inserted := insertedBy calls run.1
    let rows := store.stored.map store.valuesOf
    let p := max partitions 1
    store.partitions = List.range p
      ∧ rows.Sublist (inserted.map (returned columns))
      ∧ (∃ places : List Nat, places.length = rows.length ∧ (∀ place ∈ places, place < p)
          ∧ ∀ i, store.partitionRows i = atPlace rows places i)
      ∧ (∀ i, p ≤ i → store.partitionRows i = [])
      ∧ ((∀ call ∈ calls, ∃ added, call.2 = .insertAll added) →
          rows = inserted.map (returned columns)
            ∧ (∀ i, store.partitionRows i = atPlace rows ((List.range rows.length).map (· % p)) i)
            ∧ ∀ i < p, ∀ j < p,
                (store.partitionRows i).length ≤ (store.partitionRows j).length + 1)
      ∧ ∀ row, List.Forall₂ Column.Typed columns row → returned columns row = row := by
  intro run store inserted rows p
  have htraced : Traced inserted store := (Traced.of_create hcreate).runShared _ calls
  have hcounted : (∀ call ∈ calls, ∃ added, call.2 = .insertAll added) → Counted inserted store :=
    (counted_of_create hcreate).runShared _
  obtain ⟨-, hcolumns, hcount⟩ := frame_runShared s (fun _ => {}) calls
  obtain ⟨-, rfl⟩ := create_eq_ok.mp hcreate
  have hshown' : NumbersShown store.columns := hcolumns ▸ hshown
  have hreturned : (inserted.map (keep store.columns)).map (readBack store.columns)
      = inserted.map (returned columns) := by
    rw [hcolumns, List.map_map]
    rfl
  -- the places are the numbers reduced by one, reduced to the partition count
  let places := store.stored.map fun r => (r.number - 1) % p
  have hparts : ∀ i, store.partitionRows i = atPlace rows places i := by
    intro i
    rw [partitionRows_eq_atPlace hshown' htraced.stored.numbered, hcount]
  have hrows : rows = (contents store.stored).map (readBack store.columns) := map_valuesOf store
  have hlength : rows.length = store.stored.length := List.length_map _
  have hbelow : ∀ place ∈ places, place < p := by
    intro place hplace
    obtain ⟨r, -, rfl⟩ := List.mem_map.mp hplace
    exact Nat.mod_lt _ (Nat.lt_of_lt_of_le Nat.one_pos (Nat.le_max_right _ _))
  refine ⟨?_, ?_, ⟨places, ?_, hbelow, hparts⟩, ?_, ?_, fun row => returned_eq⟩
  · rw [RowStore.partitions, hcount]
  · rw [hrows, ← hreturned]
    exact htraced.stored.sublist.map _
  · rw [hlength, List.length_map]
  · intro i hi
    rw [hparts, atPlace, List.map_eq_nil_iff, List.filter_eq_nil_iff]
    intro q hq
    have hplace := hbelow q.2 (List.of_mem_zip hq).2
    rw [decide_eq_true_iff]
    omega
  · intro honly
    have hturn : ∀ i, store.partitionRows i
        = atPlace rows ((List.range rows.length).map (· % p)) i := by
      intro i
      rw [hparts, hlength, ← (hcounted honly).places_eq p]
    refine ⟨?_, hturn, fun i hi j hj => ?_⟩
    · rw [hrows, (hcounted honly).stored, hreturned]
    · rw [hturn, hturn]
      exact length_atPlace_places hi hj

/-- Three rows in two partitions; then a delete that is taken back, and one that is not. -/
theorem partitions_cover_discarded :
    let calls : List (Unit × StoreCall) :=
      [((), .insertAll [[.text "x"], [.text "y"], [.text "z"]]), ((), .begin ⟨"q"⟩),
        ((), .delete ⟨"q"⟩ [.text "x"]), ((), .discard ⟨"q"⟩ .keyTooWide),
        ((), .delete ⟨"q"⟩ [.text "y"])]
    ∃ s, create "t" (textColumns 1) 2 = .ok s ∧ NumbersShown (textColumns 1)
      ∧ (runAll StoreCall.runShared (calls.take 1) (s, fun _ => {})).2.1.partitionRows 1
          = [[.text "y"]]
      ∧ (runAll StoreCall.runShared calls (s, fun _ => {})).2.1.partitionRows 0
          = [[.text "x"], [.text "z"]]
      ∧ (runAll StoreCall.runShared calls (s, fun _ => {})).2.1.partitionRows 2 = [] := by
  intro calls
  obtain ⟨s, hs⟩ := create_textColumns (n := 1) (by decide) 2
  have hshown := numbersShown_textColumns 1
  obtain ⟨-, -, -, -, hcounted, -⟩ := partitions_cover hs hshown (calls.take 1)
  obtain ⟨-, -, -, hpast, -, -⟩ := partitions_cover hs hshown calls
  obtain ⟨-, rfl⟩ := create_eq_ok.mp hs
  refine ⟨_, hs, hshown, ?_, by decide +kernel, hpast 2 (Nat.le_refl 2)⟩
  have honly : ∀ call ∈ calls.take 1, ∃ added, call.2 = .insertAll added := by
    intro call hcall
    obtain rfl := List.mem_singleton.mp hcall
    exact ⟨_, rfl⟩
  rw [(hcounted honly).2.1]
  decide +kernel

end RowStore

end ShopTables
