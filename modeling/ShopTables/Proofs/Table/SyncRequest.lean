import Mathlib.Data.List.Basic
import ShopTables.Proofs.Api.Search
import ShopTables.Proofs.KeyList
import ShopTables.Proofs.Table.DeleteStatement

/-!
# The request of a delete statement

A delete statement that accepts rows makes one request, and its body is read back as a batch of one
operation that names each accepted row by the texts of its primary key, whatever characters these
have (`deleteMatching_sends`).
-/

namespace ShopTables

/-! ### The keys of rows -/

namespace BulkEditor

/-- The primary key of a row, each cell by its column's name and as text. -/
def keyTexts (d : TableDefinition) (row : Row) : List (String × String) :=
  ((d.columns.zip row).filter (·.1.primaryKey)).map fun (c, v) => (c.name, v.display)

theorem zipIdx_texts (columns : List Column) {row : Row} (h : row.length = columns.length) :
    (columns.zipIdx.map fun (c, i) => (c, ((row[i]?).map Value.display).getD ""))
      = (columns.zip row).map fun (c, v) => (c, v.display) := by
  apply List.ext_getElem
  · rw [List.length_map, List.length_map, List.length_zipIdx, List.length_zip, h, Nat.min_self]
  · intro i hi hi'
    have hrow : i < row.length := by
      rw [List.length_map, List.length_zip] at hi'
      omega
    rw [List.getElem_map, List.getElem_map, List.getElem_zipIdx, List.getElem_zip]
    dsimp only
    rw [Nat.zero_add, List.getElem?_eq_getElem hrow]
    rfl

/-- The key that is kept of a row as wide as the table. -/
theorem keyOf?_eq_some {d : TableDefinition} {row : Row} {key : RecordKey}
    (h : row.length = d.columns.length) (hkey : keyOf? d row = some key) :
    key = KeyList.ofList (keyTexts d row) := by
  have htexts : (d.primaryKeyOrdinals.filterMap fun i =>
        (d.columns[i]?).map fun c => (c.name, ((row[i]?).map Value.display).getD ""))
      = keyTexts d row := by
    have hplaces : d.primaryKeyOrdinals = (d.columns.zipIdx.filter (·.1.primaryKey)).map (·.2) :=
      RowStore.primaryPlaces_eq _
    have hcolumn : ∀ p ∈ d.columns.zipIdx.filter (·.1.primaryKey),
        ((d.columns[p.2]?).map fun c => (c.name, ((row[p.2]?).map Value.display).getD ""))
          = some (p.1.name, ((row[p.2]?).map Value.display).getD "") := by
      intro p hp
      rw [List.mem_zipIdx_iff_getElem?.mp (List.mem_of_mem_filter hp), Option.map_some]
    -- the ordinals of the key and the columns of the key are one selection, made in two ways
    have hfilter := congrArg (fun texts => (texts.filter (·.1.primaryKey)).map
      fun (c, text) => (c.name, text)) (zipIdx_texts d.columns h)
    simp only [List.filter_map, List.map_map] at hfilter
    rw [hplaces, List.filterMap_map]
    refine (List.filterMap_congr hcolumn).trans ?_
    rw [List.filterMap_eq_map']
    exact hfilter
  unfold keyOf? at hkey
  split_ifs at hkey
  rw [← htexts]
  exact (Option.some.inj hkey).symm

theorem names_keyTexts_sublist {d : TableDefinition} {row : Row}
    (h : row.length = d.columns.length) :
    ((keyTexts d row).map (·.1)).Sublist (d.columns.map (·.name)) := by
  have hfst : (d.columns.zip row).map (·.1) = d.columns := List.map_fst_zip (Nat.le_of_eq h.symm)
  have hzip : (d.columns.zip row).map (fun p => p.1.name) = d.columns.map (·.name) := by
    calc (d.columns.zip row).map (fun p => p.1.name)
        = ((d.columns.zip row).map (·.1)).map (·.name) := by rw [List.map_map]; rfl
      _ = d.columns.map (·.name) := by rw [hfst]
  rw [← hzip, keyTexts, List.map_map]
  exact List.filter_sublist.map _

/-- A kept key is a map, and has just the texts of the primary key. -/
theorem sorted_and_perm_of_keyOf? {d : TableDefinition} {row : Row} {key : RecordKey}
    (hnames : (d.columns.map (·.name)).Nodup) (h : row.length = d.columns.length)
    (hkey : keyOf? d row = some key) : KeyList.Sorted key ∧ key.Perm (keyTexts d row) := by
  rw [keyOf?_eq_some h hkey]
  exact ⟨KeyList.sorted_ofList _, KeyList.perm_ofList (hnames.sublist (names_keyTexts_sublist h))⟩

end BulkEditor

/-! ### What the shop receives -/

theorem searchPath_ne_syncPath (entity : String) : searchPath entity ≠ syncPath := by
  intro h
  have hsixth := congrArg (fun path => path.toList[5]?) h
  simp [searchPath, syncPath] at hsixth

namespace TableHandle

open BulkEditor (keyTexts)

variable {τ : Type} [CancellableApi τ]

/-- A delete statement that succeeds counts the rows the predicate accepted, of those it scanned;
and the shop received one batch of changes if there were any, none otherwise. Read as JSON, the
batch has one entry: it deletes, of the entity of the table, one record for each accepted row, in
scan order, given by the primary-key columns and the texts of their cells. -/
theorem deleteMatching_sends {ctx : Context} {accept : Row → StateM τ Bool}
    {s s' : Session (Recorded τ)} {t t' : TableHandle} {n : Nat}
    (h : (deleteMatching ctx (onShop accept)).runFrom (s, t) = (.ok n, s', t')) :
    ∃ rows s₁ t₁, (scan ctx).runFrom (s, t) = (.ok rows, s₁, t₁)
      ∧ n = (answersFrom accept rows s₁.api.shop).count true
      ∧ (n = 0 → s'.api.requestsTo "/api/_action/sync" = s.api.requestsTo "/api/_action/sync")
      ∧ (0 < n → ∃ request keys,
          s'.api.requestsTo "/api/_action/sync"
              = s.api.requestsTo "/api/_action/sync" ++ [request]
          ∧ request.Deletes t.definition.name keys
          ∧ List.Forall₂ (fun (row : Row) (key : RecordKey) =>
              row.length = t.definition.columns.length
                ∧ key.Perm (keyTexts t.definition row) ∧ KeyList.Sorted key)
            (selected rows (answersFrom accept rows s₁.api.shop)) keys) := by
  obtain ⟨s₁, t₁, inserted, store, store', chosen, keys, hscan, hfilled, -, rfl, hn, hkeys, -, -,
    hread, hsent⟩ := deleteMatching_ok h
  -- each accepted row stands beside its key
  have hpairs := forall₂_of_mapM_some hkeys
  have hlength := length_selected store.rows _ (length_answersFrom accept store.rows s₁.api.shop)
  -- the request of the scan went to another path
  have hrequests : s'.api.requestsTo syncPath = s.api.requestsTo syncPath
      ++ if keys = [] then [] else [BulkEditor.syncRequest t.definition keys] := by
    have hsearch : (searchPath t.definition.name == syncPath) = false :=
      beq_false_of_ne (searchPath_ne_syncPath _)
    rw [Recorded.requestsTo, hsent, hread, List.filter_append, List.filter_append,
      List.filter_cons_of_neg (by simp [hsearch]), List.filter_nil, List.append_nil]
    congr 1
    split_ifs
    · rfl
    · rfl
  rw [syncPath] at hrequests
  refine ⟨store.rows, s₁, t₁, hscan, hn.trans hlength, fun hzero => ?_, fun hpos => ?_⟩
  · have hnone : keys = [] := by
      rw [← List.length_eq_zero_iff, ← hpairs.length_eq, ← hn, hzero]
    rw [hrequests, if_pos hnone, List.append_nil]
  · have hsome : keys ≠ [] := by
      rw [ne_eq, ← List.length_eq_zero_iff, ← hpairs.length_eq, ← hn]
      exact Nat.ne_of_gt hpos
    refine ⟨_, keys, hrequests.trans (by rw [if_neg hsome]),
      BulkEditor.deletes_syncRequest t.definition (BulkEditor.sorted_of_mapM_keyOf? hkeys),
      forall₂_imp_of_mem hpairs fun row hrow key hkey => ?_⟩
    have hwide := hfilled.length_of_mem_rows ((selected_sublist _ _).subset hrow)
    obtain ⟨hsorted, hperm⟩ := BulkEditor.sorted_and_perm_of_keyOf? hfilled.names hwide hkey
    exact ⟨hwide, hperm, hsorted⟩

/-- Both of two records of an entity with an underscore in its name are accepted, and the shop is
told so in one request, in which the name has a hyphen. -/
theorem deleteMatching_sends_media :
    ∃ s' t', (deleteMatching ⟨"q"⟩ (onShop fun _ => pure true)).runFrom
          (offeringOf "product_media" [[("id", .string "1")], [("id", .string "2")]],
            handleOf "product_media" BulkEditor.products.columns) = (.ok 2, s', t')
      ∧ ∃ request, s'.api.requestsTo "/api/_action/sync" = [request] ∧ request.method = .post
        ∧ request.document? = some (.object [("delete-product-media", .object
            [("action", .string "delete"), ("entity", .string "product-media"),
              ("payload", .array [.object [("id", .string "1")], .object [("id", .string "2")]])])])
    := by
  have hread : SearchAnswer.read?
        (SearchAnswer.answerDocument [[("id", .string "1")], [("id", .string "2")]] 2).bytes
      = some ⟨some 2, [[("id", .string "1")], [("id", .string "2")]]⟩ :=
    SearchAnswer.read?_answerDocument (by decide) (by decide)
      (by simp [Json.ReadableFields, Json.Readable])
  have hstore : Session.storeOf (handleOf "product_media" BulkEditor.products.columns).definition 2
        [[("id", .string "1")], [("id", .string "2")]]
      = .ok { name := "product_media", columns := BulkEditor.products.columns, partitionCount := 2,
              partitionCount_pos := by decide,
              stored := [⟨1, [.text "1"]⟩, ⟨2, [.text "2"]⟩], savepoints := [] } := rfl
  have hscan := runFrom_scan ⟨"q"⟩
    (s := offeringOf "product_media" [[("id", .string "1")], [("id", .string "2")]])
    (t := handleOf "product_media" BulkEditor.products.columns) rfl hread hstore
  obtain ⟨s', t', hrun⟩ : ∃ s' t', (deleteMatching ⟨"q"⟩ (onShop fun _ => pure true)).runFrom
        (offeringOf "product_media" [[("id", .string "1")], [("id", .string "2")]],
          handleOf "product_media" BulkEditor.products.columns) = (.ok 2, s', t') :=
    ⟨_, _, (Step.runFrom_bind_of_ok hscan).trans rfl⟩
  refine ⟨s', t', hrun, ?_⟩
  obtain ⟨rows, s₁, t₁, hscan', -, -, hsome⟩ := deleteMatching_sends hrun
  obtain ⟨request, keys, hrequests, hdeletes, hkeys⟩ := hsome (by decide)
  obtain ⟨hrows, hst⟩ := Prod.mk.inj (hscan.symm.trans hscan')
  obtain ⟨rfl, rfl⟩ := Prod.mk.inj hst
  obtain rfl := Except.ok.inj hrows
  -- the keys of the two rows
  obtain ⟨key, _, ⟨-, hkey, -⟩, hrest, rfl⟩ := List.forall₂_cons_left_iff.mp hkeys
  obtain ⟨key', _, ⟨-, hkey', -⟩, hnil, rfl⟩ := List.forall₂_cons_left_iff.mp hrest
  obtain rfl := List.forall₂_nil_left_iff.mp hnil
  obtain rfl : key = [("id", "1")] := List.perm_singleton.mp hkey
  obtain rfl : key' = [("id", "2")] := List.perm_singleton.mp hkey'
  obtain ⟨hmethod, -, v, hdocument, entity, hname, rfl⟩ := hdeletes
  obtain rfl : entity = "product-media" := hname.unique (by decide)
  exact ⟨request, hrequests, hmethod, hdocument⟩

end TableHandle

end ShopTables
