import Mathlib.Data.String.Basic
import ShopTables.KeyList

/-!
# Maps in key order

`KeyList.ofList` sorts pairs into a map. The result is in order whatever came in (`sorted_ofList`),
it has just the pairs that came in when no two of them share a name (`perm_ofList`), and a list
that is a map already stays as it is (`ofList_eq_self`). So a map is known by its pairs, and the
order they arrive in does not matter.
-/

namespace ShopTables.KeyList

variable {β : Type u}

/-! ### Inserting one pair -/

theorem mem_keys_insert {key k : String} {value : β} {m : KeyList β} :
    k ∈ keys (insert key value m) ↔ k = key ∨ k ∈ keys m := by
  induction m with
  | nil => simp [insert]
  | cons p m ih =>
    rw [insert]
    split_ifs with hlt heq
    · simp
    · subst heq
      simp
    · simp only [keys_cons, List.mem_cons, ih]
      tauto

theorem insert_subset {key : String} {value : β} {m : KeyList β} :
    insert key value m ⊆ (key, value) :: m := by
  induction m with
  | nil => exact List.Subset.refl _
  | cons p m ih =>
    rw [insert]
    split_ifs with hlt heq
    · exact List.Subset.refl _
    · exact List.cons_subset_cons _ (List.subset_cons_self p m)
    · intro q hq
      rcases List.mem_cons.mp hq with rfl | hq
      · simp
      · have := ih hq
        simp only [List.mem_cons] at this ⊢
        tauto

/-- A pair with a new name is added to those that are there. -/
theorem perm_insert {key : String} {value : β} {m : KeyList β} (h : key ∉ keys m) :
    (insert key value m).Perm ((key, value) :: m) := by
  induction m with
  | nil => exact List.Perm.refl _
  | cons p m ih =>
    simp only [keys_cons, List.mem_cons, not_or] at h
    rw [insert]
    split_ifs with hlt heq
    · exact List.Perm.refl _
    · exact absurd heq h.1
    · exact ((ih h.2).cons p).trans (List.Perm.swap _ _ _)

theorem sorted_cons {p : String × β} {m : KeyList β} :
    Sorted (p :: m) ↔ (∀ k ∈ keys m, p.1 < k) ∧ Sorted m := by
  rw [Sorted, List.pairwise_cons, keys, List.forall_mem_map]
  exact Iff.rfl

theorem Sorted.insert {key : String} {value : β} {m : KeyList β} (h : Sorted m) :
    Sorted (insert key value m) := by
  induction m with
  | nil => exact List.pairwise_singleton _ _
  | cons p m ih =>
    obtain ⟨hp, hm⟩ := sorted_cons.mp h
    rw [KeyList.insert]
    split_ifs with hlt heq
    · refine sorted_cons.mpr ⟨fun k hk => ?_, h⟩
      rcases List.mem_cons.mp hk with rfl | hk
      · exact hlt
      · exact lt_trans hlt (hp k hk)
    · subst heq
      exact sorted_cons.mpr ⟨hp, hm⟩
    · refine sorted_cons.mpr ⟨fun k hk => ?_, ih hm⟩
      rcases mem_keys_insert.mp hk with rfl | hk
      · exact lt_of_le_of_ne (not_lt.mp hlt) fun e => heq e.symm
      · exact hp k hk

/-- A name before all others goes in front. -/
theorem insert_eq_cons {key : String} {value : β} {m : KeyList β} (h : ∀ k ∈ keys m, key < k) :
    insert key value m = (key, value) :: m := by
  cases m with
  | nil => rfl
  | cons p m =>
    rw [insert]
    exact if_pos (h p.1 (by simp))

/-- A name after all others goes to the end. -/
theorem insert_eq_append {key : String} {value : β} {m : KeyList β} (h : ∀ k ∈ keys m, k < key) :
    insert key value m = m ++ [(key, value)] := by
  induction m with
  | nil => rfl
  | cons p m ih =>
    have hp : p.1 < key := h p.1 (by simp)
    rw [insert, if_neg (lt_asymm hp), if_neg (ne_of_gt hp), List.cons_append,
      ih fun k hk => h k (by simp [hk])]

/-! ### The map of a list -/

/-- The pairs of a list put into a map one after the other. -/
theorem foldl_insert_perm (pairs : List (String × β)) (m : KeyList β)
    (h : (keys m ++ pairs.map (·.1)).Nodup) :
    (pairs.foldl (fun m p => insert p.1 p.2 m) m).Perm (m ++ pairs) := by
  induction pairs generalizing m with
  | nil => simp
  | cons p pairs ih =>
    rw [List.map_cons, List.nodup_append, List.nodup_cons] at h
    obtain ⟨hm, ⟨hp, hpairs⟩, hdisj⟩ := h
    have hnew : p.1 ∉ keys m := fun hk => hdisj _ hk _ (by simp) rfl
    have hins : (insert p.1 p.2 m).Perm (p :: m) := perm_insert hnew
    have hkeys : (keys (insert p.1 p.2 m)).Perm (p.1 :: keys m) := hins.map _
    have hnodup : (keys (insert p.1 p.2 m) ++ pairs.map (·.1)).Nodup := by
      rw [(hkeys.append_right _).nodup_iff, List.cons_append, List.nodup_cons, List.mem_append,
        List.nodup_append]
      refine ⟨fun hk => hk.elim hnew hp, hm, hpairs, fun a ha b hb => hdisj a ha b (by simp [hb])⟩
    rw [List.foldl_cons]
    exact ((ih _ hnodup).trans (hins.append_right pairs)).trans List.perm_middle.symm

/-- A map made of pairs with different names has just these pairs. -/
theorem perm_ofList {pairs : List (String × β)} (h : (pairs.map (·.1)).Nodup) :
    (ofList pairs).Perm pairs :=
  foldl_insert_perm pairs [] (by simpa using h)

/-- All pairs of a map come from the list it was made of. -/
theorem ofList_subset (pairs : List (String × β)) : ofList pairs ⊆ pairs := by
  have hfold : ∀ (ps : List (String × β)) (m : KeyList β),
      ps.foldl (fun m p => insert p.1 p.2 m) m ⊆ m ++ ps := by
    intro ps
    induction ps with
    | nil => exact fun m => List.subset_append_left m []
    | cons p ps ih =>
      intro m q hq
      rcases List.mem_append.mp (ih _ hq) with hq | hq
      · rcases List.mem_cons.mp (insert_subset hq) with rfl | hq
        · simp
        · exact List.mem_append_left _ hq
      · exact List.mem_append_right _ (List.mem_cons_of_mem _ hq)
  exact hfold pairs []

theorem sorted_ofList (pairs : List (String × β)) : Sorted (ofList pairs) := by
  have hfold : ∀ (ps : List (String × β)) (m : KeyList β), Sorted m →
      Sorted (ps.foldl (fun m p => insert p.1 p.2 m) m) := by
    intro ps
    induction ps with
    | nil => exact fun m hm => hm
    | cons p ps ih => exact fun m hm => ih _ hm.insert
  exact hfold pairs [] sorted_nil

theorem foldl_insert_eq_append (pairs : List (String × β)) (m : KeyList β)
    (h : Sorted (m ++ pairs)) :
    pairs.foldl (fun m p => insert p.1 p.2 m) m = m ++ pairs := by
  induction pairs generalizing m with
  | nil => simp
  | cons p pairs ih =>
    have hlast : insert p.1 p.2 m = m ++ [p] := by
      apply insert_eq_append
      intro k hk
      obtain ⟨q, hq, rfl⟩ := List.mem_map.mp hk
      exact (List.pairwise_append.mp h).2.2 q hq p (by simp)
    have hassoc : m ++ [p] ++ pairs = m ++ p :: pairs := by simp
    rw [List.foldl_cons, hlast, ih _ (by rwa [hassoc]), hassoc]

/-- A list that is in key order already is the map of its pairs. -/
theorem ofList_eq_self {m : KeyList β} (h : Sorted m) : ofList m = m :=
  foldl_insert_eq_append m [] h

theorem Sorted.nodup_keys {m : KeyList β} (h : Sorted m) : (keys m).Nodup := by
  rw [keys, List.Nodup, List.pairwise_map]
  exact h.imp fun hlt => ne_of_lt hlt

/-! ### Looking up a name -/

theorem get?_cons (p : String × β) (m : KeyList β) (key : String) :
    get? (p :: m) key = if p.1 = key then some p.2 else get? m key := by
  rw [get?, List.find?_cons]
  split_ifs with hkey
  · rw [beq_iff_eq.mpr hkey]
    rfl
  · rw [beq_eq_false_iff_ne.mpr hkey]
    rfl

theorem get?_eq_none_iff {m : KeyList β} {key : String} : get? m key = none ↔ key ∉ keys m := by
  induction m with
  | nil => simp
  | cons p m ih =>
    rw [get?_cons, keys_cons, List.mem_cons, not_or]
    split_ifs with hkey
    · simp [hkey]
    · rw [ih]
      exact ⟨fun h => ⟨fun e => hkey e.symm, h⟩, fun h => h.2⟩

theorem mem_of_get? {m : KeyList β} {key : String} {value : β} (h : get? m key = some value) :
    (key, value) ∈ m := by
  induction m with
  | nil => cases h
  | cons p m ih =>
    rw [get?_cons] at h
    split_ifs at h with hkey
    · obtain rfl := Option.some.inj h
      subst hkey
      exact List.mem_cons_self
    · exact List.mem_cons_of_mem _ (ih h)

/-- In a map that has each name once, a pair is found by its name. -/
theorem get?_of_mem {m : KeyList β} {key : String} {value : β} (hkeys : (keys m).Nodup)
    (h : (key, value) ∈ m) : get? m key = some value := by
  induction m with
  | nil => cases h
  | cons p m ih =>
    rw [keys_cons, List.nodup_cons] at hkeys
    rw [get?_cons]
    rcases List.mem_cons.mp h with rfl | h
    · exact if_pos rfl
    · have hne : p.1 ≠ key := fun e => hkeys.1 (e ▸ List.mem_map_of_mem (f := Prod.fst) h)
      rw [if_neg hne, ih hkeys.2 h]

end ShopTables.KeyList
