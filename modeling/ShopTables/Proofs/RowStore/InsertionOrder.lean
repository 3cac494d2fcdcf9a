import ShopTables.Proofs.RowStore.Partitions

/-!
# The order of all rows

```
    stored, numbered from 1      partition 0     partition 1        all rows
    x   y   z   w           →    x   z           y   w         =    x   z   y   w
```

All rows of a store are its partitions one after the other, so they are in insertion order if the
places of the stored rows ascend, and, when no two of them are alike, only then
(`rows_eq_iff_ascending`). Places that go round ascend if there is one partition, or no more rows
than partitions (`ascending_turns_iff`). One partition always keeps the order; otherwise deletes
decide about it (`rows_partition_by_partition`).
-/

namespace ShopTables.RowStore

/-! ### Classes one after the other -/

section

variable {α : Type} {f : α → Nat} {l : List α}

/-- Classes one after the other ascend. -/
theorem ascending_classes (f : α → Nat) (l : List α) (n : Nat) :
    ((List.range n).flatMap fun i => l.filter fun a => f a = i).Pairwise
      fun a b => f a ≤ f b := by
  refine List.pairwise_flatMap.mpr ⟨fun i _ => ?_, ?_⟩
  · -- in one class all are level
    refine List.Pairwise.imp_of_mem (R := fun _ _ => True) ?_ (List.pairwise_of_forall (by simp))
    intro a b ha hb _
    rw [of_decide_eq_true (List.mem_filter.mp ha).2, of_decide_eq_true (List.mem_filter.mp hb).2]
  · refine List.pairwise_lt_range.imp fun {i j} hij a ha b hb => ?_
    rw [of_decide_eq_true (List.mem_filter.mp ha).2, of_decide_eq_true (List.mem_filter.mp hb).2]
    exact Nat.le_of_lt hij

/-- In an ascending list, what is below a bound stands before what is level with it. -/
theorem filter_lt_append_filter_eq (h : l.Pairwise fun a b => f a ≤ f b) (n : Nat) :
    (l.filter fun a => f a < n) ++ (l.filter fun a => f a = n)
      = l.filter fun a => f a < n + 1 := by
  induction l with
  | nil => rfl
  | cons a l ih =>
    obtain ⟨hfirst, hrest⟩ := List.pairwise_cons.mp h
    rcases Nat.lt_trichotomy (f a) n with hlt | heq | hgt
    · rw [List.filter_cons_of_pos (by simpa using hlt), List.filter_cons_of_neg (by simp; omega),
        List.filter_cons_of_pos (by simp; omega), List.cons_append, ih hrest]
    · -- nothing after `a` is below it
      have hnone : (l.filter fun b => f b < n) = [] := by
        rw [List.filter_eq_nil_iff]
        intro b hb
        have := hfirst b hb
        simp
        omega
      rw [List.filter_cons_of_neg (by simp; omega), List.filter_cons_of_pos (by simpa using heq),
        List.filter_cons_of_pos (by simp; omega), ← ih hrest, hnone]
      rfl
    · rw [List.filter_cons_of_neg (by simp; omega), List.filter_cons_of_neg (by simp; omega),
        List.filter_cons_of_neg (by simp; omega), ih hrest]

theorem classes_of_ascending (h : l.Pairwise fun a b => f a ≤ f b) (n : Nat) :
    ((List.range n).flatMap fun i => l.filter fun a => f a = i) = l.filter fun a => f a < n := by
  induction n with
  | zero => simp
  | succ n ih =>
    rw [List.range_succ, List.flatMap_append, List.flatMap_singleton, ih,
      filter_lt_append_filter_eq h]

/-- Classes one after the other give a list back exactly if it ascends. -/
theorem classes_eq_self_iff {n : Nat} (hbelow : ∀ a ∈ l, f a < n) :
    ((List.range n).flatMap fun i => l.filter fun a => f a = i) = l
      ↔ l.Pairwise fun a b => f a ≤ f b := by
  constructor
  · intro h
    rw [← h]
    exact ascending_classes f l n
  · intro h
    rw [classes_of_ascending h, List.filter_eq_self]
    exact fun a ha => decide_eq_true (hbelow a ha)

end

/-! ### Rows and their places -/

section

variable {rows : List Row} {places : List Nat} {p : Nat}

theorem flatMap_atPlace (rows : List Row) (places : List Nat) (p : Nat) :
    (List.range p).flatMap (atPlace rows places)
      = ((List.range p).flatMap fun i => (rows.zip places).filter fun q => q.2 = i).map (·.1) := by
  rw [List.map_flatMap]
  rfl

theorem ascending_zip_iff (h : places.length = rows.length) :
    (rows.zip places).Pairwise (fun a b => a.2 ≤ b.2) ↔ places.Pairwise (· ≤ ·) := by
  rw [← List.pairwise_map (f := Prod.snd) (R := (· ≤ ·)), List.map_snd_zip (Nat.le_of_eq h)]

/-- If the places ascend, the rows place by place are the rows. -/
theorem flatMap_atPlace_of_ascending (h : places.length = rows.length)
    (hbelow : ∀ place ∈ places, place < p) (hascending : places.Pairwise (· ≤ ·)) :
    (List.range p).flatMap (atPlace rows places) = rows := by
  have hplace : ∀ q ∈ rows.zip places, q.2 < p := fun q hq => hbelow q.2 (List.of_mem_zip hq).2
  rw [flatMap_atPlace, (classes_eq_self_iff hplace).mpr ((ascending_zip_iff h).mpr hascending),
    List.map_fst_zip (Nat.le_of_eq h.symm)]

theorem eq_of_map_eq_of_nodup {α β : Type} {f : α → β} {l l' : List α} (hnodup : (l.map f).Nodup)
    (hsub : l' ⊆ l) (h : l'.map f = l.map f) : l' = l := by
  have hlength : l'.length = l.length := by
    rw [← List.length_map (f := f), h, List.length_map]
  refine List.ext_getElem hlength fun i hi' hi => ?_
  refine List.inj_on_of_nodup_map hnodup (hsub (List.getElem_mem hi')) (List.getElem_mem hi) ?_
  rw [← List.getElem_map f (h := by rwa [List.length_map]),
    ← List.getElem_map f (h := by rwa [List.length_map])]
  exact List.getElem_of_eq h _

/-- If no two rows are alike, the rows place by place are the rows exactly if the places
ascend. -/
theorem flatMap_atPlace_eq_iff (h : places.length = rows.length)
    (hbelow : ∀ place ∈ places, place < p) (hnodup : rows.Nodup) :
    (List.range p).flatMap (atPlace rows places) = rows ↔ places.Pairwise (· ≤ ·) := by
  refine ⟨fun heq => ?_, flatMap_atPlace_of_ascending h hbelow⟩
  have hplace : ∀ q ∈ rows.zip places, q.2 < p := fun q hq => hbelow q.2 (List.of_mem_zip hq).2
  have hfst : (rows.zip places).map (·.1) = rows := List.map_fst_zip (Nat.le_of_eq h.symm)
  -- rows that are not alike tell where they stood, so the pairs come back as the rows do
  rw [← ascending_zip_iff h, ← classes_eq_self_iff hplace]
  refine eq_of_map_eq_of_nodup (f := (·.1)) (hfst.symm ▸ hnodup) ?_ ?_
  · intro q hq
    obtain ⟨i, -, hq⟩ := List.mem_flatMap.mp hq
    exact List.mem_of_mem_filter hq
  · rw [← flatMap_atPlace, heq, hfst]

end

/-- Places that go round ascend if they never start again. -/
theorem ascending_turns_iff {n p : Nat} (hp : 0 < p) :
    ((List.range n).map (· % p)).Pairwise (· ≤ ·) ↔ p = 1 ∨ n ≤ p := by
  rw [List.pairwise_map]
  constructor
  · intro h
    by_contra! hfails
    obtain ⟨hone, hmore⟩ := hfails
    -- the last place is followed by the first
    have hturn : (p - 1) % p ≤ p % p := by
      have hpair := List.pairwise_iff_getElem.mp h (p - 1) p (by simp; omega) (by simp; omega)
        (by omega)
      simpa using hpair
    rw [Nat.mod_self, Nat.mod_eq_of_lt (by omega)] at hturn
    omega
  · rintro (rfl | hn)
    · simp [Nat.mod_one, List.pairwise_iff_getElem]
    · refine List.pairwise_lt_range.imp_of_mem fun {a b} ha hb hab => ?_
      rw [List.mem_range] at ha hb
      rw [Nat.mod_eq_of_lt (by omega), Nat.mod_eq_of_lt (by omega)]
      exact Nat.le_of_lt hab

/-! ### All rows -/

theorem rows_eq_flatMap_atPlace {s : RowStore} (h : NumbersShown s.columns)
    (hn : Numbered s.stored) :
    s.rows = (List.range s.partitionCount).flatMap (atPlace (s.stored.map s.valuesOf)
      (s.stored.map fun r => (r.number - 1) % s.partitionCount)) := by
  rw [rows, partitions, show s.partitionRows = _ from funext (partitionRows_eq_atPlace h hn)]

/-- All rows come back partition by partition. After any calls of any parties the stored rows are
some of those that were added, in that order (`order`), and the number of each gives it a place
below the partition count; all rows are those of the first place, then those of the second, and so
on, in `order` each. So they come back in `order` if the places ascend; if no two rows are alike,
only then; and always if there is one partition. If rows were only added, the places go round, so
more rows than partitions come back in another order, unless there is one partition or some rows
are alike. -/
theorem rows_partition_by_partition {P : Type} [DecidableEq P] {table : String}
    {columns : List Column} {partitions : Nat} {s : RowStore}
    (hcreate : create table columns partitions = .ok s) (hshown : NumbersShown columns)
    (calls : List (P × StoreCall)) :
    let run := runAll StoreCall.runShared calls (s, fun _ => {})
    let store := run.2.1
    let inserted := insertedBy calls run.1
    let order := store.stored.map store.valuesOf
    let p := max partitions 1
    let places := store.stored.map fun r => (r.number - 1) % p
    order.Sublist (inserted.map (returned columns))
      ∧ store.rows = (List.range p).flatMap (atPlace order places)
      ∧ (places.Pairwise (· ≤ ·) → store.rows = order)
      ∧ (order.Nodup → (store.rows = order ↔ places.Pairwise (· ≤ ·)))
      ∧ store.rows.Perm order
      ∧ (p = 1 → store.rows = order)
      ∧ ((∀ call ∈ calls, ∃ added, call.2 = .insertAll added) →
          order = inserted.map (returned columns)
            ∧ (p = 1 ∨ inserted.length ≤ p → store.rows = order)
            ∧ (order.Nodup → (store.rows = order ↔ p = 1 ∨ inserted.length ≤ p))) := by
  intro run store inserted order p places
  have htraced : Traced inserted store := (Traced.of_create hcreate).runShared _ calls
  have hcounted : (∀ call ∈ calls, ∃ added, call.2 = .insertAll added) → Counted inserted store :=
    (counted_of_create hcreate).runShared _
  obtain ⟨-, hcolumns, hcount⟩ := frame_runShared s (fun _ => {}) calls
  obtain ⟨-, rfl⟩ := create_eq_ok.mp hcreate
  have hshown' : NumbersShown store.columns := hcolumns ▸ hshown
  have hp : 0 < p := Nat.lt_of_lt_of_le Nat.one_pos (Nat.le_max_right _ _)
  have hreturned : (inserted.map (keep store.columns)).map (readBack store.columns)
      = inserted.map (returned columns) := by
    rw [hcolumns, List.map_map]
    rfl
  have horder : order = (contents store.stored).map (readBack store.columns) := map_valuesOf store
  have hlength : places.length = order.length := by
    rw [List.length_map, List.length_map]
  have hbelow : ∀ place ∈ places, place < p := by
    intro place hplace
    obtain ⟨r, -, rfl⟩ := List.mem_map.mp hplace
    exact Nat.mod_lt _ hp
  have hrows : store.rows = (List.range p).flatMap (atPlace order places) := by
    rw [rows_eq_flatMap_atPlace hshown' htraced.stored.numbered, hcount]
  have hascending : places.Pairwise (· ≤ ·) → store.rows = order := by
    rw [hrows]
    exact flatMap_atPlace_of_ascending hlength hbelow
  have hiff : order.Nodup → (store.rows = order ↔ places.Pairwise (· ≤ ·)) := by
    rw [hrows]
    exact flatMap_atPlace_eq_iff hlength hbelow
  refine ⟨?_, hrows, hascending, hiff, perm_rows hshown' htraced.stored.numbered,
    fun hone => hascending ?_, fun honly => ?_⟩
  · rw [horder, ← hreturned]
    exact htraced.stored.sublist.map _
  · refine List.pairwise_of_forall_mem_list fun a ha b hb => ?_
    have hlt := hbelow a ha
    omega
  · have hall : order = inserted.map (returned columns) := by
      rw [horder, (hcounted honly).stored, hreturned]
    have hsize : inserted.length = store.stored.length := by
      rw [← List.length_map (returned columns), ← hall, List.length_map]
    have hturns : places.Pairwise (· ≤ ·) ↔ p = 1 ∨ inserted.length ≤ p := by
      rw [hsize, ← ascending_turns_iff hp, ← (hcounted honly).places_eq p]
    exact ⟨hall, fun h => hascending (hturns.mpr h), fun hnodup => (hiff hnodup).trans hturns⟩

/-- Two rows in two partitions come back in order, and three do not. -/
theorem rows_partition_by_partition_two :
    let two : List (Unit × StoreCall) := [((), .insertAll [[.text "x"], [.text "y"]])]
    let three := two ++ [((), .insertAll [[.text "z"]])]
    ∃ s, create "t" (textColumns 1) 2 = .ok s ∧ NumbersShown (textColumns 1)
      ∧ (runAll StoreCall.runShared two (s, fun _ => {})).2.1.rows = [[.text "x"], [.text "y"]]
      ∧ (runAll StoreCall.runShared three (s, fun _ => {})).2.1.rows
          ≠ (runAll StoreCall.runShared three (s, fun _ => {})).2.1.stored.map
              (runAll StoreCall.runShared three (s, fun _ => {})).2.1.valuesOf := by
  intro two three
  obtain ⟨s, hs⟩ := create_textColumns (n := 1) (by decide) 2
  have hshown := numbersShown_textColumns 1
  have htwo := (rows_partition_by_partition hs hshown two).2.2.2.2.2.2
  have hthree := (rows_partition_by_partition hs hshown three).2.2.2.2.2.2
  obtain ⟨-, rfl⟩ := create_eq_ok.mp hs
  refine ⟨_, hs, hshown, ?_, fun heq => ?_⟩
  · obtain ⟨horder, hrows, -⟩ := htwo (by simp [two])
    rw [hrows (by decide +kernel), horder]
    decide +kernel
  · obtain ⟨-, -, hiff⟩ := hthree (by simp [two, three])
    exact absurd ((hiff (by decide +kernel)).mp heq) (by decide +kernel)

/-- In two partitions, the third row comes back before the second. -/
theorem rows_out_of_order :
    ∃ s, create "t" (textColumns 1) 2 = .ok s ∧ NumbersShown (textColumns 1)
      ∧ ∃ s', s.insertAll [[.text "x"], [.text "y"], [.text "z"]] = .ok s'
        ∧ s'.stored.map s'.valuesOf = [[.text "x"], [.text "y"], [.text "z"]]
        ∧ s'.rows = [[.text "x"], [.text "z"], [.text "y"]] := by
  obtain ⟨s, hs⟩ := create_textColumns (n := 1) (by decide) 2
  refine ⟨s, hs, numbersShown_textColumns 1, ?_⟩
  obtain ⟨-, rfl⟩ := create_eq_ok.mp hs
  exact ⟨_, rfl, by decide +kernel, by decide +kernel⟩

end ShopTables.RowStore
