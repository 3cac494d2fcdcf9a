import ShopTables.Api.BulkOperation
import ShopTables.Proofs.Json.Forms

/-!
# Requests to delete records

What a shop is told when records are to be deleted is written out here character by character and
field by field (`Hyphenated`, `Json.DeletesRecords`, `Request.Deletes`). A batch that deletes, read
back from its bytes, is such a document (`BulkOperation.deletesRecords_delete`).
-/

namespace ShopTables

/-! ### Hyphenated names -/

/-- Is a text another one with a hyphen for each underscore, and the same otherwise? -/
def Hyphenated (name entity : String) : Prop :=
  List.Forall₂ (fun c c' => c = '_' ∧ c' = '-' ∨ c ≠ '_' ∧ c' = c) name.toList entity.toList

instance (name entity : String) : Decidable (Hyphenated name entity) :=
  inferInstanceAs (Decidable (List.Forall₂ _ name.toList entity.toList))

theorem hyphenated_apiName (name : String) : Hyphenated name (apiName name) := by
  rw [Hyphenated, apiName, String.toList_ofList, List.forall₂_map_right_iff, List.forall₂_same]
  intro c _
  by_cases hc : c = '_'
  · exact .inl ⟨hc, if_pos hc⟩
  · exact .inr ⟨hc, if_neg hc⟩

/-- There is one such text. -/
theorem Hyphenated.unique {name entity entity' : String} (h : Hyphenated name entity)
    (h' : Hyphenated name entity') : entity = entity' := by
  have hright : Relator.RightUnique
      fun c c' : Char => c = '_' ∧ c' = '-' ∨ c ≠ '_' ∧ c' = c := by
    rintro c c₁ c₂ (⟨hc, rfl⟩ | ⟨hc, rfl⟩) (⟨hc', rfl⟩ | ⟨hc', rfl⟩)
    · rfl
    · exact absurd hc hc'
    · exact absurd hc' hc
    · rfl
  exact String.toList_inj.mp (List.right_unique_forall₂' hright h h')

/-! ### What the shop is told -/

/-- Is a document a batch of one operation, which deletes those records of a table that have these
keys, each of them given by the names of its columns and their texts? -/
def Json.DeletesRecords (v : Json) (table : String) (keys : List RecordKey) : Prop :=
  ∃ entity, Hyphenated table entity
    ∧ v = .object [("delete-" ++ entity, .object [("action", .string "delete"),
        ("entity", .string entity), ("payload", .array (keys.map fun key =>
          .object (key.map fun (name, text) => (name, .string text))))])]

/-- Does a request tell the shop to delete those records of a table that have these keys? -/
structure Request.Deletes (r : Request) (table : String) (keys : List RecordKey) : Prop where
  method : r.method = .post
  path : r.path = "/api/_action/sync"
  document : ∃ v, r.document? = some v ∧ v.DeletesRecords table keys

/-! ### The document of a batch -/

namespace BulkOperation

open Json (Readable ReadableItems canonical canonicalItems canonicalFields)

theorem readableItems_payload (d : Nat) (keys : List RecordKey) :
    ReadableItems (d + 1) (keys.map keyJson) := by
  induction keys with
  | nil => exact trivial
  | cons key keys ih => exact ⟨Json.readable_texts d key, ih⟩

theorem canonicalItems_payload {keys : List RecordKey} (h : ∀ key ∈ keys, KeyList.Sorted key) :
    canonicalItems (keys.map keyJson) = keys.map keyJson := by
  induction keys with
  | nil => rfl
  | cons key keys ih =>
    have hkey : canonical (keyJson key) = keyJson key :=
      Json.canonical_texts (h key List.mem_cons_self)
    rw [List.map_cons, canonicalItems, hkey, ih fun k hk => h k (List.mem_cons_of_mem _ hk)]

theorem readable_request (d : Nat) (o : BulkOperation) : Readable (d + 4) o.request :=
  ⟨⟨trivial, trivial, readableItems_payload d o.payload, trivial⟩, trivial⟩

/-- An operation as it is read back: its fields in key order. -/
theorem canonical_request {o : BulkOperation} (h : ∀ key ∈ o.payload, KeyList.Sorted key) :
    canonical o.request = .object [(o.label, .object [("action", .string o.action),
      ("entity", .string o.entity), ("payload", .array (o.payload.map keyJson))])] := by
  have hfields : canonical o.toJson = .object [("action", .string o.action),
      ("entity", .string o.entity), ("payload", .array (o.payload.map keyJson))] := by
    have horder : ∀ entity action payload : Json,
        KeyList.ofList [("entity", entity), ("action", action), ("payload", payload)]
          = [("action", action), ("entity", entity), ("payload", payload)] := by
      intro entity action payload
      have hentity : KeyList.insert "entity" entity [] = [("entity", entity)] := rfl
      have haction : KeyList.insert "action" action [("entity", entity)]
          = [("action", action), ("entity", entity)] := by
        apply KeyList.insert_eq_cons
        simp only [KeyList.keys_cons, KeyList.keys_nil, List.mem_singleton, forall_eq]
        decide
      have hpayload : KeyList.insert "payload" payload [("action", action), ("entity", entity)]
          = [("action", action), ("entity", entity), ("payload", payload)] := by
        apply KeyList.insert_eq_append
        simp only [KeyList.keys_cons, KeyList.keys_nil, List.mem_cons, List.not_mem_nil, or_false,
          forall_eq_or_imp, forall_eq]
        decide
      rw [KeyList.ofList, List.foldl_cons, List.foldl_cons, List.foldl_cons, List.foldl_nil,
        hentity, haction, hpayload]
    rw [toJson, canonical, canonicalFields, canonicalFields, canonicalFields, canonicalFields,
      canonical, canonical, canonical, canonicalItems_payload h, Json.ofFields, horder]
  rw [request, canonical, canonicalFields, canonicalFields, hfields]
  rfl

variable (d : TableDefinition) {keys : List RecordKey} (h : ∀ key ∈ keys, KeyList.Sorted key)

include h

/-- A batch that deletes, read back. -/
theorem read?_delete : Json.read? (delete d keys).request.bytes
    = some (.object [("delete-" ++ d.apiName, .object [("action", .string "delete"),
        ("entity", .string d.apiName), ("payload", .array (keys.map keyJson))])]) := by
  have hdepth : Readable Json.maxDepth (delete d keys).request :=
    readable_request 123 (delete d keys)
  have hlabel : (delete d keys).label = "delete-" ++ d.apiName := by
    rw [label, delete, deleteAction]
    rfl
  rw [Json.read?_bytes hdepth, canonical_request h, hlabel]
  rfl

/-- It deletes just the records that have the keys. -/
theorem deletesRecords_delete : ∃ v, Json.read? (delete d keys).request.bytes = some v
    ∧ v.DeletesRecords d.name keys :=
  ⟨_, read?_delete d h, _, hyphenated_apiName d.name, rfl⟩

end BulkOperation

end ShopTables
