import ShopTables.Proofs.Api.Search
import ShopTables.Proofs.KeyList
import ShopTables.Proofs.RowStore.TakenOff
import ShopTables.Proofs.Table.DeleteStatement

/-!
# The rows that a delete statement leaves

A delete statement asks about rows and deletes by keys. Of the rows that share a key the first ones
go, as many as were accepted, whichever of them these are; so there remain as many as were
rejected. If no accepted row shares its key with a rejected one, there remain exactly the rejected
rows, in their order (`deleteMatching_leaves`).
-/

namespace ShopTables

/-- A filled store has the cells that its columns keep. -/
theorem Filled.regular {d : TableDefinition} {partitions : Nat} {rows : List Row}
    {store : RowStore} (h : Filled d partitions rows store)
    (hshown : RowStore.NumbersShown d.columns) : store.Regular := by
  refine ⟨h.columns ▸ hshown, h.numbered, fun r hr => ?_⟩
  obtain ⟨given, hgiven, hkeep⟩ := h.exists_given hr
  rw [h.columns, hkeep]
  exact RowStore.kept_keep hgiven

namespace RowStore.Regular

variable {s s' : RowStore} {answers : List Bool}

/-- Of each key as many rows are left as were not deleted. -/
theorem countP_left (h : Regular s) (hanswers : answers.length = s.rows.length)
    (hfold : (selected s.rows answers).foldlM deleteRow s = .ok s') {row : Row}
    (hrow : row ∈ s.rows) :
    s'.rows.countP (sameKey s.columns row)
      = (selected s.rows (answers.map not)).countP (sameKey s.columns row) := by
  have hall := (perm_selected s.rows answers hanswers).countP_eq (sameKey s.columns row)
  have hdrop := h.filter_deleted (selected_sublist s.rows answers).subset hfold hrow
  -- as many are left of the key as `drop` leaves, and all of them were accepted or rejected
  obtain ⟨left, hleft, rfl⟩ := foldlM_deleteRow_frame hfold
  have hcount := (h.of_sublist hleft).countP_rows row
  dsimp only at hcount hdrop
  rw [hdrop, List.length_drop, ← h.countP_rows] at hcount
  rw [List.countP_append] at hall
  rw [hcount]
  omega

/-- If the deleted rows share no key with the others, just the others are left. -/
theorem rows_left (h : Regular s) (hanswers : answers.length = s.rows.length)
    (hfold : (selected s.rows answers).foldlM deleteRow s = .ok s')
    (hapart : ∀ row ∈ selected s.rows answers, ∀ other ∈ selected s.rows (answers.map not),
      sameKey s.columns row other = false) :
    s'.rows = selected s.rows (answers.map not) := by
  have hyes := (selected_sublist s.rows answers).subset
  have hno := (selected_sublist s.rows (answers.map not)).subset
  have hall : ∀ row ∈ selected s.rows answers, s.rows.countP (sameKey s.columns row)
      ≤ (selected s.rows answers).countP (sameKey s.columns row) := by
    intro row hrow
    have hnone : (selected s.rows (answers.map not)).countP (sameKey s.columns row) = 0 :=
      List.countP_eq_zero.mpr fun other hother =>
        Bool.eq_false_iff.mp (hapart row hrow other hother)
    rw [← (perm_selected s.rows answers hanswers).countP_eq, List.countP_append, hnone]
    exact Nat.le_refl _
  rw [h.rows_deleted hyes hfold hall]
  apply filter_eq_selected hanswers
  · intro row hrow
    rw [decide_eq_false_iff_not, not_not]
    exact List.mem_map_of_mem hrow
  · intro other hother
    rw [decide_eq_true_iff]
    intro hmem
    obtain ⟨row, hrow, hsame⟩ := List.mem_map.mp hmem
    have hkey := h.sameKey_eq (hyes hrow) (hno hother)
    rw [hapart row hrow other hother, decide_eq_true hsame.symm] at hkey
    cases hkey

end RowStore.Regular

namespace TableHandle

variable {τ : Type} [CancellableApi τ]

/-- What a delete statement leaves of the row store that its scan filled: all rows but the first
ones of each key, as many as rows of that key were accepted; and so just the rejected rows, in
their order, if none of them shares its key with an accepted row. -/
theorem deleteMatching_leaves {ctx : Context} {accept : Row → StateM τ Bool}
    {s s' : Session (Recorded τ)} {t t' : TableHandle} {n : Nat}
    (hshown : RowStore.NumbersShown t.definition.columns)
    (h : (deleteMatching ctx (onShop accept)).runFrom (s, t) = (.ok n, s', t')) :
    ∃ s₁ t₁ before after accepted rejected,
      (scan ctx).runFrom (s, t) = (.ok before.rows, s₁, t₁)
      ∧ t₁.materialized? s₁ = some before ∧ t'.materialized? s' = some after
      ∧ accepted = selected before.rows (answersFrom accept before.rows s₁.api.shop)
      ∧ rejected = selected before.rows ((answersFrom accept before.rows s₁.api.shop).map not)
      ∧ after = { before with stored := after.stored } ∧ after.stored.Sublist before.stored
      -- of the rows of a key, the first ones go, as many as were accepted
      ∧ (∀ row ∈ before.rows,
          (after.stored.filter fun r => RowStore.hasKey t.definition.columns row r.cells)
            = (before.stored.filter fun r => RowStore.hasKey t.definition.columns row r.cells).drop
                (accepted.countP (RowStore.sameKey t.definition.columns row)))
      ∧ (∀ row ∈ before.rows,
          after.rows.countP (RowStore.sameKey t.definition.columns row)
            = rejected.countP (RowStore.sameKey t.definition.columns row))
      ∧ ((∀ row ∈ accepted, ∀ other ∈ rejected,
            RowStore.sameKey t.definition.columns row other = false) →
          after.rows = rejected) := by
  obtain ⟨s₁, t₁, inserted, before, after, accepted, keys, hscan, hfilled, hbefore, haccepted, -, -,
    hfold, hafter, -, -⟩ := deleteMatching_ok h
  have hregular := hfilled.regular hshown
  have hanswers := length_answersFrom accept before.rows s₁.api.shop
  rw [haccepted] at hfold
  obtain ⟨left, hleft, hafterEq⟩ := RowStore.foldlM_deleteRow_frame hfold
  refine ⟨s₁, t₁, before, after, accepted, _, hscan, hbefore, hafter, haccepted, rfl, ?_, ?_, ?_⟩
  · rw [hafterEq]
  · rw [hafterEq]
    exact hleft
  rw [haccepted, ← hfilled.columns]
  exact ⟨fun row hrow =>
      hregular.filter_deleted (selected_sublist before.rows _).subset hfold hrow,
    fun row hrow => hregular.countP_left hanswers hfold hrow, hregular.rows_left hanswers hfold⟩

/-! ### Products with a key and another field -/

/-- The columns of products: their key and another field. -/
def columnsWith (field : String) : List Column :=
  BulkEditor.products.columns ++ [⟨field, .text, true, false, "product", none⟩]

/-- A product of a key and another field. -/
def product (field id value : String) : List (String × Json) :=
  [("id", .string id), (field, .string value)]

/-- A store of products, in two partitions. -/
def productStore (field : String) (rows : List NumberedRow) : RowStore where
  name := "product"
  columns := columnsWith field
  partitionCount := 2
  partitionCount_pos := by decide
  stored := rows
  savepoints := []

/-- The rows of a store that `rowid` does not put into another order. -/
theorem rows_productStore {rows : List NumberedRow}
    (h : rows.Pairwise fun a b => (((productStore "rowid" rows).numberOf a).compareTo
      ((productStore "rowid" rows).numberOf b) != .gt) = true) :
    (productStore "rowid" rows).rows = [0, 1].flatMap fun index =>
      (rows.filter fun r => RowStore.partitionOf? 2 ((productStore "rowid" rows).numberOf r)
        == some (index : Int)).map (productStore "rowid" rows).valuesOf := by
  have hordered : (productStore "rowid" rows).ordered = rows := List.mergeSort_of_pairwise h
  have hparts : ∀ index, (productStore "rowid" rows).partitionRows index
      = (rows.filter fun r => RowStore.partitionOf? 2 ((productStore "rowid" rows).numberOf r)
          == some (index : Int)).map (productStore "rowid" rows).valuesOf := by
    intro index
    rw [RowStore.partitionRows, hordered]
    rfl
  rw [RowStore.rows, List.flatMap_congr fun index _ => hparts index]
  rfl

/-- Accepts a row, each time it occurs. -/
def isRow (wanted row : Row) : StateM CannedApi Bool := pure (row == wanted)

/-- A statement that accepts one row of products scans these rows and leaves those. -/
def Leaves (columns : List Column) (products : List (List (String × Json))) (wanted : Row)
    (rows left : List Row) : Prop :=
  ∃ s₁ t₁ s' t' after,
    (scan ⟨"q"⟩).runFrom (offering products, productHandle columns) = (.ok rows, s₁, t₁)
    ∧ (deleteMatching ⟨"q"⟩ (onShop (isRow wanted))).runFrom (offering products,
        productHandle columns) = (.ok 1, s', t')
    ∧ t'.materialized? s' = some after ∧ after.rows = left

theorem read?_products {field : String} (hfield : "id" < field) (id id' value value' : String) :
    SearchAnswer.read? (SearchAnswer.answerDocument
        [product field id value, product field id' value'] 2).bytes
      = some ⟨some 2, [product field id value, product field id' value']⟩ := by
  have hfields : ∀ fields ∈ [product field id value, product field id' value'],
      Json.ReadableFields (Json.maxDepth - 3) fields := by
    simp [product, Json.ReadableFields, Json.Readable]
  have hordered : ∀ id value, KeyList.ofList (Json.canonicalFields (product field id value))
      = product field id value := by
    intro id value
    apply KeyList.ofList_eq_self
    simp only [KeyList.Sorted, product, Json.canonicalFields, List.pairwise_pair]
    exact hfield
  rw [SearchAnswer.read?_answerDocument (by decide) (by decide) hfields, List.map_cons,
    List.map_cons, List.map_nil, hordered, hordered]

/-- Of two products with different keys the one that was rejected is left. -/
theorem deleteMatching_leaves_rejected :
    Leaves (columnsWith "name") [product "name" "1" "A", product "name" "2" "B"]
      [.text "2", .text "B"] [[.text "1", .text "A"], [.text "2", .text "B"]]
      [[.text "1", .text "A"]] := by
  have hstore : Session.storeOf (productHandle (columnsWith "name")).definition 2
        [product "name" "1" "A", product "name" "2" "B"]
      = .ok (productStore "name" [⟨1, [.text "1", .text "A"]⟩, ⟨2, [.text "2", .text "B"]⟩]) := rfl
  have hscan := runFrom_scan ⟨"q"⟩
    (s := offering [product "name" "1" "A", product "name" "2" "B"]) rfl
    (read?_products (by decide) _ _ _ _) hstore
  have hshown : RowStore.NumbersShown (columnsWith "name") := by
    unfold RowStore.NumbersShown
    decide
  obtain ⟨s', t', hrun⟩ : ∃ s' t',
      (deleteMatching ⟨"q"⟩ (onShop (isRow [.text "2", .text "B"]))).runFrom
        (offering [product "name" "1" "A", product "name" "2" "B"],
          productHandle (columnsWith "name")) = (.ok 1, s', t') :=
    ⟨_, _, (Step.runFrom_bind_of_ok hscan).trans rfl⟩
  obtain ⟨s₁, t₁, before, after, accepted, rejected, hscan', -, hafter, haccepted, hrejected, -, -,
    -, -, hrows⟩ := deleteMatching_leaves hshown hrun
  obtain ⟨hbefore, hst⟩ := Prod.mk.inj (hscan.symm.trans hscan')
  obtain ⟨rfl, rfl⟩ := Prod.mk.inj hst
  rw [← Except.ok.inj hbefore] at haccepted hrejected
  refine ⟨_, _, s', t', after, hscan, hrun, hafter, (hrows ?_).trans ?_⟩
  · rw [haccepted, hrejected]
    decide
  · rw [hrejected]
    rfl

/-- Of two products with one key the one that was accepted is left; and if a column is called
`rowid`, a product goes that was rejected. -/
theorem deleteMatching_leaves_accepted :
    Leaves (columnsWith "name") [product "name" "1" "A", product "name" "1" "B"]
        [.text "1", .text "B"] [[.text "1", .text "A"], [.text "1", .text "B"]]
        [[.text "1", .text "B"]]
      ∧ Leaves (columnsWith "rowid") [product "rowid" "1" "1", product "rowid" "2" "1"]
        [.text "1", .text "1"] [[.text "1", .text "1"], [.text "2", .text "1"]] [] := by
  constructor
  · have hstore : Session.storeOf (productHandle (columnsWith "name")).definition 2
          [product "name" "1" "A", product "name" "1" "B"]
        = .ok (productStore "name"
            [⟨1, [.text "1", .text "A"]⟩, ⟨2, [.text "1", .text "B"]⟩]) := rfl
    have hscan := runFrom_scan ⟨"q"⟩
      (s := offering [product "name" "1" "A", product "name" "1" "B"]) rfl
      (read?_products (by decide) _ _ _ _) hstore
    exact ⟨_, _, _, _, productStore "name" [⟨2, [.text "1", .text "B"]⟩],
      hscan, (Step.runFrom_bind_of_ok hscan).trans rfl, rfl, rfl⟩
  · have hstore : Session.storeOf (productHandle (columnsWith "rowid")).definition 2
          [product "rowid" "1" "1", product "rowid" "2" "1"]
        = .ok (productStore "rowid"
            [⟨1, [.text "1", .text "1"]⟩, ⟨2, [.text "2", .text "1"]⟩]) := rfl
    have hrows : (productStore "rowid"
          [⟨1, [.text "1", .text "1"]⟩, ⟨2, [.text "2", .text "1"]⟩]).rows
        = [[.text "1", .text "1"], [.text "2", .text "1"]] :=
      (rows_productStore (by decide)).trans rfl
    have hempty : (productStore "rowid" []).rows = [] := (rows_productStore .nil).trans rfl
    have hscan := runFrom_scan ⟨"q"⟩
      (s := offering [product "rowid" "1" "1", product "rowid" "2" "1"]) rfl
      (read?_products (by decide) _ _ _ _) hstore
    rw [hrows] at hscan
    exact ⟨_, _, _, _, productStore "rowid" [],
      hscan, (Step.runFrom_bind_of_ok hscan).trans rfl, rfl, hempty⟩

end TableHandle

end ShopTables
