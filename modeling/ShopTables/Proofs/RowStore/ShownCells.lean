import ShopTables.Proofs.Binary64.Integers
import ShopTables.Proofs.Json.Sound
import ShopTables.Proofs.RowStore.KeptCells

/-!
# Values that are shown as they came

```
    v  --convert-->  value  --ofValue, coerce-->  cell  --toValue-->  value'  --toJson-->  v
```

The way of a value through a column, from the record it is a field of to the listing it is shown
in. Each kind of column has values that come out as they went in (`Column.OfKind`): strings where
text is kept, truth values where these are kept, floats but minus zero where numbers are kept, and
documents without floats where documents are kept. Null goes through every column.
-/

namespace ShopTables

theorem Json.isNull_iff {v : Json} : v.isNull = true ↔ v = .null := by
  cases v <;> simp [isNull]

/-! ### Numbers kept as integers for a moment -/

namespace Cell

/-- What is known of a number that is taken for an integer. -/
theorem integerOf?_eq_some {x : Binary64} {i : Int} (h : integerOf? x = some i) :
    x.isFinite = true
      ∧ ∃ n : Nat, x.numerator = n * x.denominator ∧ i = if x.negative then -(n : Int) else n := by
  rw [integerOf?] at h
  split_ifs at h with hwhole
  · dsimp only at h
    split_ifs at h with hrange
    obtain rfl := Option.some.inj h
    rw [Bool.and_eq_true, beq_iff_eq] at hwhole
    have hnan : x.isNaN = false := Binary64.isNaN_of_isFinite hwhole.1
    refine ⟨hwhole.1, x.numerator / x.denominator,
      (Nat.div_mul_cancel (Nat.dvd_of_mod_eq_zero hwhole.2)).symm, ?_⟩
    rw [Binary64.truncate, hnan, hwhole.1, if_neg Bool.false_ne_true, if_pos rfl] at hrange ⊢
    dsimp only at hrange ⊢
    split_ifs at hrange ⊢ with hnegative
    · omega
    · omega

/-- A number that was taken for an integer is found again, if it is not minus zero. -/
theorem ofInt_of_integerOf? {x : Binary64} {i : Int} (h : integerOf? x = some i)
    (hx : x ≠ .zero true) : Binary64.ofInt i = x := by
  obtain ⟨hfinite, n, hn, rfl⟩ := integerOf?_eq_some h
  rcases Nat.eq_zero_or_pos n with rfl | hpos
  · rw [Nat.zero_mul] at hn
    have hzero := Binary64.eq_zero_of_numerator hn
    cases hnegative : x.negative with
    | true =>
      rw [hnegative] at hzero
      exact absurd hzero hx
    | false =>
      rw [hnegative] at hzero
      rw [hzero]
      rfl
  · exact (Binary64.ofInt_signed x.negative hpos).trans
      (Binary64.ofRatio_one hfinite (Nat.ne_of_gt hpos) hn)

end Cell

namespace StorageType

/-- A column of numbers keeps every number but minus zero. -/
theorem coerce_real {x : Binary64} (hx : x ≠ .zero true) : real.coerce (.real x) = .real x := by
  show (Cell.real x).asInteger.asReal = .real x
  rw [Cell.asInteger]
  cases hinteger : Cell.integerOf? x with
  | none => rfl
  | some i =>
    show Cell.real (Binary64.ofInt i) = .real x
    rw [Cell.ofInt_of_integerOf? hinteger hx]

/-- Minus zero is kept as zero. -/
example : real.coerce (.real (.zero true)) = .real (.zero false) := by decide +kernel

end StorageType

/-! ### Values of a column's kind -/

namespace Column

/-- The values of a column's kind, as a record may have them. -/
inductive OfKind (c : Column) : Json → Prop where
  | null : OfKind c .null
  | text (hkeeps : c.keepsDocuments = false) (htype : c.type = .text) (s : String) :
    OfKind c (.string s)
  | boolean (hkeeps : c.keepsDocuments = false) (htype : c.type = .boolean) (b : Bool) :
    OfKind c (.bool b)
  | double (hkeeps : c.keepsDocuments = false) (htype : c.type = .double) {x : Binary64}
    (hfinite : x.isFinite = true) (hzero : x ≠ .zero true) : OfKind c (.number (.float x))
  | document (hkeeps : c.keepsDocuments = true) {v : Json} (hfloats : v.WithoutFloats) :
    OfKind c v

/-- What is kept of a value. -/
def kept (c : Column) (value : Value) : Cell := c.storageType.coerce (Cell.ofValue value)

/-- What is shown of a kept cell. -/
def shown (c : Column) (cell : Cell) : Json := (cell.toValue c).toJson

variable {c : Column} {v : Json}

theorem convert_null : c.convert .null = .ok .null := rfl

theorem kept_null : c.kept .null = .null := by
  rw [kept]
  cases c.storageType with
  | text => rfl
  | blob => rfl
  | integer => rfl
  | real => rfl

theorem convert_document (hkeeps : c.keepsDocuments = true) (hnull : v.isNull = false) :
    c.convert v = .ok (.json v.bytes) := by
  rw [convert, hnull, if_neg Bool.false_ne_true, if_pos hkeeps]

theorem convert_scalar {value : Value} (hkeeps : c.keepsDocuments = false)
    (hnull : v.isNull = false) (hcell : c.scalarCell? v = some value) :
    c.convert v = .ok value := by
  rw [convert, hnull, if_neg Bool.false_ne_true, hkeeps, if_neg Bool.false_ne_true, hcell]

/-- A value of a column's kind is converted and kept, and shown as it was; and only null is kept as
nothing. -/
theorem shown_of_ofKind {d : Nat} (hd : d ≤ Json.maxDepth) (hsound : Json.Sound d v)
    (h : c.OfKind v) : ∃ value, c.convert v = .ok value ∧ c.shown (c.kept value) = v
      ∧ (c.kept value).isNull = v.isNull := by
  cases h with
  | null => exact ⟨.null, convert_null, by rw [kept_null]; rfl, by rw [kept_null]; rfl⟩
  | text hkeeps htype s =>
    have hcell : c.scalarCell? (.string s) = some (.text s) := by
      rw [scalarCell?, htype]
      rfl
    refine ⟨.text s, convert_scalar hkeeps rfl hcell, ?_⟩
    rw [kept, storageType_of_not_keepsDocuments hkeeps, htype]
    exact ⟨rfl, rfl⟩
  | boolean hkeeps htype b =>
    have hcell : c.scalarCell? (.bool b) = some (.boolean b) := by
      rw [scalarCell?, htype]
      rfl
    refine ⟨.boolean b, convert_scalar hkeeps rfl hcell, ?_⟩
    rw [kept, storageType_of_not_keepsDocuments hkeeps, htype]
    show (Cell.toValue c (.integer (if b then 1 else 0))).toJson = .bool b ∧ _
    rw [Cell.toValue, if_pos htype]
    cases b with
    | false => exact ⟨rfl, rfl⟩
    | true => exact ⟨rfl, rfl⟩
  | @double hkeeps htype x hfinite hzero =>
    have hcell : c.scalarCell? (.number (.float x)) = some (.double x) := by
      rw [scalarCell?, htype]
      rfl
    have hnan : x.isNaN = false := Binary64.isNaN_of_isFinite hfinite
    refine ⟨.double x, convert_scalar hkeeps rfl hcell, ?_⟩
    rw [kept, storageType_of_not_keepsDocuments hkeeps, htype, Cell.ofValue, hnan,
      if_neg Bool.false_ne_true, StorageType.coerce_real hzero]
    refine ⟨?_, rfl⟩
    rw [shown, Cell.toValue, Value.toJson, if_pos hfinite]
  | document hkeeps hfloats =>
    cases hnull : v.isNull with
    | true =>
      obtain rfl := Json.isNull_iff.mp hnull
      exact ⟨.null, convert_null, by rw [kept_null]; rfl, by rw [kept_null]; rfl⟩
    | false =>
      refine ⟨.json v.bytes, convert_document hkeeps hnull, ?_⟩
      rw [kept, storageType_of_keepsDocuments hkeeps]
      refine ⟨?_, rfl⟩
      -- the bytes are kept, and read as the document they were written for
      show (Json.read? v.bytes).getD _ = v
      rw [Json.read?_bytes_of_sound hd hsound hfloats, Option.getD_some]

end Column

end ShopTables
