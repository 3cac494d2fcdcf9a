import ShopTables.Api.Search
import ShopTables.Proofs.Fallible
import ShopTables.Proofs.Json.Forms
import ShopTables.Proofs.Json.NullText

/-!
# Search answers are read back

An answer that was written as an object, with records that hold no floats, gives these records,
each with its fields in key order (`SearchAnswer.read?_answerDocument`). And however an answer was
written, the records that are read from it are sound (`SearchAnswer.sound_of_read?`), and the
numbers in their fields are finite (`SearchAnswer.finiteNumber_of_read?`).
-/

namespace ShopTables.SearchAnswer

open Json (ReadableFields ReadableItems canonicalFields outlinesOf outlineOf)

/-- The answer to a search, as a document. -/
def answerDocument (records : List (List (String × Json))) (total : Int) : Json :=
  .object [("data", .array (records.map .object)), ("total", Json.ofInt total)]

variable {records : List (List (String × Json))}

theorem readableItems_records {d : Nat} (h : ∀ fields ∈ records, ReadableFields d fields) :
    ReadableItems (d + 1) (records.map .object) := by
  induction records with
  | nil => exact trivial
  | cons fields records ih =>
    exact ⟨h fields List.mem_cons_self, ih fun fs hfs => h fs (List.mem_cons_of_mem _ hfs)⟩

theorem mapM_record?_outlinesOf {d : Nat} (h : ∀ fields ∈ records, ReadableFields d fields) :
    (outlinesOf (records.map .object)).mapM (record? d)
      = some (records.map fun fields => KeyList.ofList (canonicalFields fields)) := by
  induction records with
  | nil => rfl
  | cons fields records ih =>
    have hrecord : record? d (outlineOf (.object fields))
        = some (KeyList.ofList (canonicalFields fields)) := by
      rw [outlineOf, record?, Json.ofMembers?_membersOf d fields (h fields List.mem_cons_self),
        Option.map_some]
    rw [List.map_cons, outlinesOf, List.mapM_cons, hrecord,
      ih fun fs hfs => h fs (List.mem_cons_of_mem _ hfs)]
    rfl

/-- The records of a written answer are read as they are. -/
theorem read?_answerDocument {total : Int} (hlow : 0 ≤ total) (hhigh : total ≤ maxTotal)
    (h : ∀ fields ∈ records, ReadableFields (Json.maxDepth - 3) fields) :
    read? (answerDocument records total).bytes
      = some { total := some total,
               records := records.map fun fields => KeyList.ofList (canonicalFields fields) } := by
  have hmost : total < 18446744073709551616 := by
    unfold maxTotal at hhigh
    omega
  have hreadable : Json.Readable Json.maxDepth (answerDocument records total) :=
    ⟨readableItems_records h, ⟨by omega, hmost⟩, trivial⟩
  have hfields : Json.Form.read? ["total", "data"] (outlineOf (answerDocument records total))
      = some [some (outlineOf (Json.ofInt total)),
          some (outlineOf (.array (records.map .object)))] := by
    rw [answerDocument, Json.Form.read?_outlineOf (by decide) (by simp)]
    rfl
  rw [read?, Json.outlineRead?_bytes hreadable, Option.bind_some, ofOutline?, hfields]
  dsimp only
  rw [Json.Form.optionalInt?_ofInt hlow hhigh (by omega) hmost, outlineOf, Json.Form.list?,
    mapM_record?_outlinesOf h]
  rfl

/-! ### The records of an answer -/

/-- Each record of an answer was read from an outline. -/
theorem exists_record?_of_read? {bytes : List UInt8} {answer : SearchAnswer}
    (h : read? bytes = some answer) {record : KeyList Json} (hrecord : record ∈ answer.records) :
    ∃ o, record? (Json.maxDepth - 3) o = some record := by
  obtain ⟨o, -, ho⟩ := Option.bind_eq_some_iff.mp h
  rw [ofOutline?] at ho
  split at ho
  · rename_i total data _
    simp only [Option.bind_eq_bind, Option.bind_eq_some_iff, Option.pure_def,
      Option.some.injEq] at ho
    obtain ⟨_, -, records, hrecords, rfl⟩ := ho
    unfold Json.Form.list? at hrecords
    split at hrecords
    · obtain ⟨item, -, hitem⟩ := exists_of_mem_of_forall₂ (forall₂_of_mapM_some hrecords) hrecord
      exact ⟨item, hitem⟩
    · cases hrecords
  · cases ho

/-- A record is made of the fields of an object. -/
theorem exists_fields_of_record? {d : Nat} {o : Json.Outline} {record : KeyList Json}
    (h : record? d o = some record) :
    ∃ members fields, Json.ofMembers? d members = some fields ∧ record = KeyList.ofList fields := by
  cases o with
  | object members =>
    obtain ⟨fields, hfields, rfl⟩ := Option.map_eq_some_iff.mp h
    exact ⟨members, fields, hfields, rfl⟩
  | null => cases h
  | bool b => cases h
  | number l => cases h
  | string ps => cases h
  | array items => cases h

section

variable {bytes : List UInt8} {answer : SearchAnswer} (h : read? bytes = some answer)
  {record : KeyList Json} (hrecord : record ∈ answer.records)

include h hrecord

/-- The fields of a record that was read stand in key order, and their values are sound. -/
theorem sound_of_read? :
    KeyList.Sorted record ∧ Json.SoundFields (Json.maxDepth - 3) record := by
  obtain ⟨o, ho⟩ := exists_record?_of_read? h hrecord
  obtain ⟨members, fields, hfields, rfl⟩ := exists_fields_of_record? ho
  exact ⟨KeyList.sorted_ofList fields,
    Json.soundFields_ofList (Json.soundFields_of_ofMembers? _ members fields hfields)⟩

/-- The numbers in the fields of a record that was read are finite. -/
theorem finiteNumber_of_read? : ∀ f ∈ record, f.2.FiniteNumber := by
  obtain ⟨o, ho⟩ := exists_record?_of_read? h hrecord
  obtain ⟨members, fields, hfields, rfl⟩ := exists_fields_of_record? ho
  intro f hf
  obtain ⟨o', ho'⟩ := Json.exists_outline_of_mem hfields f (KeyList.ofList_subset fields hf)
  exact (Json.of_ofOutline? ho').1

end

end ShopTables.SearchAnswer
