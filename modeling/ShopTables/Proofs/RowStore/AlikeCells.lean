import ShopTables.Proofs.Binary64.ShownIntegers
import ShopTables.Proofs.RowStore.ShownCells

/-!
# Values that agree with a kept cell

```
    v  --ofValue-->  given  --agree-->  kept cell  --toValue-->  v
```

A value may agree with a cell that is shown as another value: a truth value with the text of a
number, a numeral with the number, minus zero with zero. But a value of its column's own kind that
comes back as it was (`Column.Returns`) agrees only with cells that are shown as itself
(`Column.toValue_of_agree`), whatever values the cells were kept of.
-/

namespace ShopTables

/-! ### Integers found in cells -/

namespace NumericText

theorem isNaN_scaled (negative : Bool) (significand : Nat) (exponent : Int) :
    (scaled negative significand exponent).isNaN = false := by
  have hsome (x : Binary64) :
      (if x.isNaN then Binary64.infinite negative else { x with negative }).isNaN = false := by
    split_ifs with hnan
    · rfl
    · exact Bool.eq_false_iff.mpr hnan
  unfold scaled
  split_ifs
  · rfl
  · exact hsome _
  · exact hsome _

end NumericText

namespace Cell

theorem integerOf?_range {x : Binary64} {i : Int} (h : integerOf? x = some i) :
    -9223372036854775808 < i ∧ i < 9223372036854775807 := by
  rw [integerOf?] at h
  split_ifs at h with hwhole
  dsimp only at h
  split_ifs at h with hrange
  obtain rfl := Option.some.inj h
  exact hrange

/-- A number whose value is a small integer is taken for it. -/
theorem integerOf?_of_value {x : Binary64} {i : Int} (hfinite : x.isFinite = true)
    (hvalue : x.value = i) (hlow : -9223372036854775808 < i) (hhigh : i < 9223372036854775807) :
    integerOf? x = some i := by
  have hden := x.denominator_pos
  have hsigned : x.signedNumerator = i * x.denominator := by
    rw [Binary64.value, div_eq_iff (Nat.cast_ne_zero.mpr (Nat.ne_of_gt hden))] at hvalue
    exact_mod_cast hvalue
  have hnumerator : x.numerator = i.natAbs * x.denominator := by
    rw [← Int.natAbs_natCast x.denominator, ← Int.natAbs_mul, ← hsigned, Binary64.signedNumerator]
    split_ifs <;> simp
  have hsize : x.numerator / x.denominator = i.natAbs := by
    rw [hnumerator, Nat.mul_div_cancel _ hden]
  have hsign : if x.negative then i ≤ 0 else 0 ≤ i := by
    rw [Binary64.signedNumerator] at hsigned
    split_ifs at hsigned ⊢ <;> nlinarith
  have hnan : x.isNaN = false := Binary64.isNaN_of_isFinite hfinite
  have htruncate : x.truncate = i := by
    rw [Binary64.truncate, hnan, hfinite, if_neg Bool.false_ne_true, if_pos rfl, hsize]
    dsimp only
    cases hnegative : x.negative with
    | true =>
      rw [hnegative, if_pos rfl] at hsign
      rw [if_pos rfl]
      omega
    | false =>
      rw [hnegative, if_neg Bool.false_ne_true] at hsign
      rw [if_neg Bool.false_ne_true]
      omega
  have hwhole : (x.isFinite && x.numerator % x.denominator == 0) = true := by
    rw [hfinite, hnumerator, Nat.mul_mod_left]
    rfl
  rw [integerOf?, if_pos hwhole, htruncate]
  exact if_pos ⟨hlow, hhigh⟩

/-- The cells that conversions make: small integers, and numbers that are some. -/
def Proper : Cell → Prop
  | .integer i => i.natAbs < 18446744073709551616
  | .real x => x.isNaN = false
  | _ => True

theorem proper_ofValue (v : Value) : (ofValue v).Proper := by
  cases v with
  | boolean b =>
    show (if b then 1 else 0 : Int).natAbs < 18446744073709551616
    cases b <;> decide
  | double x =>
    rw [ofValue]
    split_ifs with hnan
    · trivial
    · exact Bool.eq_false_iff.mpr hnan
  | null => trivial
  | text s => trivial
  | json bytes => trivial

theorem proper_ofNumber {cs : List Char} {n : NumericText.Number}
    (h : NumericText.number? cs = some n) : (ofNumber n).Proper := by
  have hword {i : Int} (hfits : NumericText.fitsWord i = true) :
      i.natAbs < 18446744073709551616 := by
    rw [NumericText.fitsWord, Bool.and_eq_true, decide_eq_true_iff, decide_eq_true_iff] at hfits
    omega
  unfold NumericText.number? at h
  dsimp only at h
  split at h
  · obtain rfl := Option.some.inj h
    split_ifs with hfits
    · exact hword hfits
    · exact NumericText.isNaN_scaled _ _ _
  · obtain rfl := Option.some.inj h
    exact NumericText.isNaN_scaled _ _ _
  · cases h

theorem Proper.asNumber {cell : Cell} (h : cell.Proper) : cell.asNumber.Proper := by
  cases cell with
  | text s =>
    rw [Cell.asNumber]
    cases hnumber : NumericText.number? s.toList with
    | none => trivial
    | some n => exact proper_ofNumber hnumber
  | _ => exact h

theorem Proper.asInteger {cell : Cell} (h : cell.Proper) : cell.asInteger.Proper := by
  cases cell with
  | real x =>
    rw [Cell.asInteger]
    cases hinteger : integerOf? x with
    | none => exact h
    | some i =>
      have hrange := integerOf?_range hinteger
      show i.natAbs < 18446744073709551616
      omega
  | _ => exact h

/-! ### Cells by their places -/

theorem kindRank_eq_of_standing {a b : Cell} (h : a.standing = b.standing) :
    a.kindRank = b.kindRank := by
  rw [kindRank_eq, kindRank_eq, h]

theorem eq_null_of_standing {cell : Cell} (h : cell.standing = .null) : cell = .null := by
  have hkind : cell.kindRank = 0 := kindRank_eq_of_standing (b := .null) h
  cases cell with
  | null => rfl
  | _ => cases hkind

theorem eq_text_of_standing {cell : Cell} {s : String}
    (h : cell.standing = .text (Text.Utf8.ofString s)) : cell = .text s := by
  have hkind : cell.kindRank = 2 := kindRank_eq_of_standing (b := .text s) h
  cases cell with
  | text t => rw [Text.Utf8.ofString_injective (Standing.text.inj h)]
  | _ => cases hkind

theorem eq_blob_of_standing {cell : Cell} {bytes : List UInt8} (h : cell.standing = .blob bytes) :
    cell = .blob bytes := by
  have hkind : cell.kindRank = 3 := kindRank_eq_of_standing (b := .blob bytes) h
  cases cell with
  | blob bytes' => rw [Standing.blob.inj h]
  | _ => cases hkind

/-- Where a small integer stands there are itself and numbers that are taken for it. -/
theorem of_standing_integer {cell : Cell} {i : Int} (hlow : -9223372036854775808 < i)
    (hhigh : i < 9223372036854775807) (h : cell.standing = .number i) :
    cell = .integer i ∨ ∃ x, cell = .real x ∧ integerOf? x = some i := by
  have hkind : cell.kindRank = 1 := kindRank_eq_of_standing (b := .integer i) h
  cases cell with
  | integer j =>
    have hsame : (j : ℚ) = i := Standing.number.inj h
    rw [Int.cast_inj] at hsame
    exact .inl (congrArg _ hsame)
  | real x =>
    replace h : x.standing = .number i := h
    cases hfinite : x.isFinite with
    | true =>
      rw [Binary64.standing, if_pos hfinite, Standing.number.injEq] at h
      exact .inr ⟨x, rfl, integerOf?_of_value hfinite h hlow hhigh⟩
    | false =>
      rw [Binary64.standing, hfinite] at h
      cases h
  | _ => cases hkind

/-! ### Cells that were converted already -/

theorem asText_asText (cell : Cell) : cell.asText.asText = cell.asText := by
  cases cell <;> rfl

theorem asNumber_asNumber (cell : Cell) : cell.asNumber.asNumber = cell.asNumber := by
  cases cell with
  | text s =>
    cases hnumber : NumericText.number? s.toList with
    | none =>
      have hsame : (Cell.text s).asNumber = .text s := by rw [asNumber, hnumber]
      rw [hsame, hsame]
    | some n =>
      have hcell : (Cell.text s).asNumber = ofNumber n := by rw [asNumber, hnumber]
      rw [hcell]
      cases n with
      | integer i => rfl
      | real x => rfl
  | _ => rfl

theorem asNumber_asInteger {cell : Cell} (h : cell.asNumber = cell) :
    cell.asInteger.asNumber = cell.asInteger := by
  cases cell with
  | real x =>
    rw [asInteger]
    cases integerOf? x with
    | none => rfl
    | some i => rfl
  | _ => exact h

theorem asNumber_asReal {cell : Cell} (h : cell.asNumber = cell) :
    cell.asReal.asNumber = cell.asReal := by
  cases cell with
  | integer i => rfl
  | _ => exact h

theorem integerOf?_of_asInteger {cell : Cell} {x : Binary64} (h : cell.asInteger = .real x) :
    integerOf? x = none := by
  cases cell with
  | real y =>
    rw [asInteger] at h
    cases hinteger : integerOf? y with
    | none =>
      rw [hinteger] at h
      rwa [← Cell.real.inj h]
    | some i =>
      rw [hinteger] at h
      cases h
  | null => cases h
  | integer i => cases h
  | text s => cases h
  | blob bytes => cases h

end Cell

namespace StorageType

open Cell (integerOf?)

/-- A column of numbers keeps no minus zero, and nothing that is no number. -/
theorem plain_of_coerce_real {v : Value} {x : Binary64}
    (h : real.coerce (Cell.ofValue v) = .real x) : x.isNaN = false ∧ x ≠ .zero true := by
  have hproper := (Cell.proper_ofValue v).asNumber.asInteger
  replace h : (Cell.ofValue v).asNumber.asInteger.asReal = .real x := h
  cases hcell : (Cell.ofValue v).asNumber.asInteger with
  | integer i =>
    rw [hcell] at h hproper
    obtain rfl := Cell.real.inj h
    exact ⟨Binary64.isNaN_ofInt i, Binary64.ofInt_ne_zero hproper⟩
  | real y =>
    rw [hcell] at h hproper
    obtain rfl := Cell.real.inj h
    refine ⟨hproper, ?_⟩
    -- minus zero would have become an integer
    rintro rfl
    have hnone := Cell.integerOf?_of_asInteger hcell
    exact absurd hnone (by decide +kernel)
  | null =>
    rw [hcell] at h
    cases h
  | text s =>
    rw [hcell] at h
    cases h
  | blob bytes =>
    rw [hcell] at h
    cases h

theorem coerce_real_ne_integer (cell : Cell) (i : Int) : real.coerce cell ≠ .integer i := by
  show cell.asNumber.asInteger.asReal ≠ _
  cases cell.asNumber.asInteger <;> exact nofun

theorem asNumber_coerce_integer (cell : Cell) :
    (integer.coerce cell).asNumber = integer.coerce cell :=
  Cell.asNumber_asInteger (Cell.asNumber_asNumber cell)

theorem asNumber_coerce_real (cell : Cell) : (real.coerce cell).asNumber = real.coerce cell :=
  Cell.asNumber_asReal (Cell.asNumber_asInteger (Cell.asNumber_asNumber cell))

/-! ### Agreeing with a converted cell -/

theorem blob_agree_iff {cell given : Cell} :
    blob.agree cell given = true ↔ cell.standing = given.standing := by
  unfold agree
  rw [beq_iff_eq, Cell.compareTo_eq_iff]

theorem integer_agree_iff {cell given : Cell} (h : cell.asNumber = cell) :
    integer.agree cell given = true ↔ cell.standing = given.asNumber.standing := by
  unfold agree
  rw [beq_iff_eq, Cell.compareTo_eq_iff, h]

theorem real_agree_iff {cell given : Cell} (h : cell.asNumber = cell) :
    real.agree cell given = true ↔ cell.standing = given.asNumber.standing := by
  unfold agree
  rw [beq_iff_eq, Cell.compareTo_eq_iff, h]

theorem text_agree_text_iff {cell : Cell} {s : String} :
    text.agree cell (.text s) = true ↔ cell.asText.standing = .text (Text.Utf8.ofString s) := by
  have hgiven : (if isText cell then (Cell.text s).asText else .text s) = .text s := ite_self _
  unfold agree
  rw [beq_iff_eq, Cell.compareTo_eq_iff, hgiven]
  rfl

/-- An empty cell agrees with nothing else. -/
theorem eq_null_of_agree {t : StorageType} {cell : Cell} (h : t.agree cell .null = true) :
    cell = .null := by
  have hnumber (hnone : cell.asNumber = .null) : cell = .null := by
    cases cell with
    | text s =>
      rw [Cell.asNumber] at hnone
      cases hnumber : NumericText.number? s.toList with
      | none =>
        rw [hnumber] at hnone
        cases hnone
      | some n =>
        rw [hnumber] at hnone
        cases n <;> cases hnone
    | _ => exact hnone
  unfold agree at h
  rw [beq_iff_eq, Cell.compareTo_eq_iff] at h
  cases t with
  | blob => exact Cell.eq_null_of_standing h
  | text =>
    have hgiven : (if isText cell then Cell.null.asText else .null) = .null := ite_self _
    dsimp only at h
    rw [hgiven] at h
    exact Cell.eq_null_of_standing h
  | integer => exact hnumber (Cell.eq_null_of_standing h)
  | real => exact hnumber (Cell.eq_null_of_standing h)

end StorageType

namespace Column

/-- The values of a column's kind that come back as they were: all but minus zero and what is no
number. -/
def Returns (c : Column) (v : Value) : Prop :=
  c.Holds v ∧ ∀ x, v = .double x → x.isNaN = false ∧ x ≠ .zero true

/-- A number other than minus zero agrees only with a kept cell that is the same number. -/
theorem kept_eq_real_of_agree {c : Column} {x : Binary64} {w : Value}
    (hholds : c.Holds (.double x)) (hnan : x.isNaN = false) (hzero : x ≠ .zero true)
    (h : c.storageType.agree (c.kept w) (Cell.ofValue (.double x)) = true) :
    c.kept w = .real x := by
  have hstorage : c.storageType = .real := by
    rw [storageType_of_not_keepsDocuments hholds.1, hholds.2]
  have hconverted : (c.kept w).asNumber = c.kept w := by
    rw [kept, hstorage, StorageType.asNumber_coerce_real]
  have hgiven : Cell.ofValue (.double x) = .real x := by
    rw [Cell.ofValue, hnan, if_neg Bool.false_ne_true]
  rw [hstorage, StorageType.real_agree_iff hconverted, hgiven] at h
  have hkind : (c.kept w).kindRank = 1 := Cell.kindRank_eq_of_standing (b := .real x) h
  cases hcell : c.kept w with
  | real y =>
    have hcoerce : StorageType.real.coerce (Cell.ofValue w) = .real y := by
      rw [← hcell, kept, hstorage]
    obtain ⟨hnan', hzero'⟩ := StorageType.plain_of_coerce_real hcoerce
    rw [hcell] at h
    rw [Binary64.eq_of_standing hnan' hnan hzero' hzero h]
  | integer i =>
    rw [kept, hstorage] at hcell
    exact absurd hcell (StorageType.coerce_real_ne_integer _ i)
  | null =>
    rw [hcell] at hkind
    cases hkind
  | text s =>
    rw [hcell] at hkind
    cases hkind
  | blob bytes =>
    rw [hcell] at hkind
    cases hkind

/-- A value that comes back as it was agrees only with cells that are shown as itself. -/
theorem toValue_of_agree {c : Column} {v w : Value} (hv : c.Returns v)
    (h : c.storageType.agree (c.kept w) (Cell.ofValue v) = true) : (c.kept w).toValue c = v := by
  obtain ⟨hholds, hplain⟩ := hv
  cases v with
  | null =>
    rw [StorageType.eq_null_of_agree h]
    rfl
  | text s =>
    have hstorage : c.storageType = .text := by
      rw [storageType_of_not_keepsDocuments hholds.1, hholds.2]
    have hconverted : (c.kept w).asText = c.kept w := by
      rw [kept, hstorage]
      exact Cell.asText_asText _
    rw [hstorage, Cell.ofValue, StorageType.text_agree_text_iff, hconverted] at h
    rw [Cell.eq_text_of_standing h]
    rfl
  | boolean b =>
    have hstorage : c.storageType = .integer := by
      rw [storageType_of_not_keepsDocuments hholds.1, hholds.2]
    have hconverted : (c.kept w).asNumber = c.kept w := by
      rw [kept, hstorage, StorageType.asNumber_coerce_integer]
    rw [hstorage, StorageType.integer_agree_iff hconverted] at h
    obtain hcell | ⟨x, hcell, hinteger⟩ :=
      Cell.of_standing_integer (i := if b then 1 else 0) (by cases b <;> decide)
        (by cases b <;> decide) h
    · rw [hcell, Cell.toValue, if_pos hholds.2]
      cases b <;> rfl
    · -- a number that is taken for an integer is not kept as a number
      rw [kept, hstorage] at hcell
      rw [Cell.integerOf?_of_asInteger hcell] at hinteger
      cases hinteger
  | double x =>
    obtain ⟨hnan, hzero⟩ := hplain x rfl
    rw [kept_eq_real_of_agree hholds hnan hzero h]
    rfl
  | json bytes =>
    rw [storageType_of_keepsDocuments hholds, StorageType.blob_agree_iff] at h
    rw [Cell.eq_blob_of_standing h]
    rfl

end Column

end ShopTables
