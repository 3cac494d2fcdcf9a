import ShopTables.Proofs.Binary64.Finite
import ShopTables.Proofs.Json.Sound

/-!
# Only null is read from the text of null

```
    bytes  --read?-->  v  --bytes-->  text of v  --read?-->  null    only if v is null
```

A number that is not finite would be written as `null`, but every number that is read is finite
(`of_ofOutline?`). All other texts begin with a character that null does not begin with: numbers are
written with the characters of numbers only (`numeric_write`, `numeric_writeInt`). So no value but
null becomes null by being written and read again (`read?_bytes_ne_null`).
-/

namespace ShopTables.Json

open Outline (value? skipBlanks isBlank)

/-! ### Numbers that are read are finite -/

theorem isFinite_of_scaleByTen? {x y : Binary64} {e : Int} (hx : x.isFinite = true)
    (h : scaleByTen? x e = some y) : y.isFinite = true := by
  fun_induction scaleByTen? x e with
  | case1 x e _ power _ z hz =>
    obtain rfl := Option.some.inj h
    exact hz
  | case2 => cases h
  | case3 x e hsmall power hnegative =>
    obtain rfl := Option.some.inj h
    have hpower := Binary64.power_of_ten (e := e.natAbs) (by omega) (by omega)
    exact Binary64.isFinite_div hx hpower.1 hpower.2
  | case4 x e _ hzero =>
    obtain rfl := Option.some.inj h
    exact hx
  | case5 => cases h
  | case6 x e _ _ _ ih =>
    have hpower := Binary64.power_of_ten (e := 308) (by decide) (by decide)
    exact ih (Binary64.isFinite_div hx hpower.1 hpower.2) h

/-- The size of a number is finite, however its exponent moves the point. -/
theorem isFinite_of_size {n : Nat} (hn : n < wordLimit) {places : Int}
    {exponent : Option (Bool × List Char)} {x : Binary64}
    (h : (match exponentOf exponent with
      | .error negative => if n = 0 ∨ negative = true then some (Binary64.zero false) else none
      | .ok e => scaleByTen? (Binary64.ofInt n) (places + e)) = some x) : x.isFinite = true := by
  cases hexponent : exponentOf exponent with
  | error negative =>
    rw [hexponent] at h
    dsimp only at h
    split_ifs at h
    obtain rfl := Option.some.inj h
    rfl
  | ok e =>
    rw [hexponent] at h
    exact isFinite_of_scaleByTen? (Binary64.isFinite_ofInt (i := n) hn) h

theorem Literal.isFinite_of_float? {l : Literal} {x : Binary64} (h : l.float? = some x) :
    x.isFinite = true := by
  have hwhole := takeDigits_lt l.whole (n := 0) (by decide)
  unfold float? at h
  dsimp only at h
  obtain ⟨y, hy, rfl⟩ := Option.map_eq_some_iff.mp h
  have hfinite : y.isFinite = true := by
    cases hfraction : l.fraction with
    | none =>
      rw [hfraction] at hy
      exact isFinite_of_size hwhole hy
    | some ds =>
      rw [hfraction] at hy
      exact isFinite_of_size (takeDigits_lt ds hwhole) hy
  split_ifs
  · exact hfinite
  · exact hfinite

/-- A number that is read is finite. -/
theorem isFinite_of_number? {l : Literal} {n : Number} (h : l.number? = some n) :
    n.toBinary64.isFinite = true := by
  have hwhole := takeDigits_lt l.whole (n := 0) (by decide)
  unfold Literal.number? at h
  dsimp only at h
  split_ifs at h with hplain hnegative hrange
  · obtain rfl := Option.some.inj h
    refine Binary64.isFinite_ofInt ?_
    rw [Int.natAbs_neg]
    exact hwhole
  · obtain rfl := Option.some.inj h
    exact Binary64.isFinite_ofInt (i := (takeDigits 0 l.whole).1) hwhole
  · obtain rfl := Option.some.inj h
    exact Binary64.isFinite_ofInt (i := (takeDigits 0 l.whole).1) hwhole
  · obtain ⟨x, hx, rfl⟩ := Option.map_eq_some_iff.mp h
    exact Literal.isFinite_of_float? hx

/-- Is the value a finite number, if it is a number? -/
def FiniteNumber : Json → Prop
  | .number n => n.toBinary64.isFinite = true
  | _ => True

/-- Numbers that are read are finite, and only null is read as null. -/
theorem of_ofOutline? {d : Nat} {o : Outline} {v : Json} (h : ofOutline? d o = some v) :
    v.FiniteNumber ∧ (v = .null → o = .null) := by
  fun_cases ofOutline? d o with
  | case1 =>
    obtain rfl := Option.some.inj h
    exact ⟨trivial, fun _ => rfl⟩
  | case2 b =>
    obtain rfl := Option.some.inj h
    exact ⟨trivial, nofun⟩
  | case3 l =>
    rw [ofOutline?] at h
    obtain ⟨n, hn, rfl⟩ := Option.map_eq_some_iff.mp h
    exact ⟨isFinite_of_number? hn, nofun⟩
  | case4 ps =>
    rw [ofOutline?] at h
    obtain ⟨s, -, rfl⟩ := Option.map_eq_some_iff.mp h
    exact ⟨trivial, nofun⟩
  | case5 items =>
    rw [ofOutline?] at h
    cases h
  | case6 items d =>
    rw [ofOutline?] at h
    obtain ⟨vs, -, rfl⟩ := Option.map_eq_some_iff.mp h
    exact ⟨trivial, nofun⟩
  | case7 members =>
    rw [ofOutline?] at h
    cases h
  | case8 members d =>
    rw [ofOutline?] at h
    obtain ⟨fields, -, rfl⟩ := Option.map_eq_some_iff.mp h
    exact ⟨trivial, nofun⟩

/-- The values of fields that were read were read themselves. -/
theorem exists_outline_of_mem {d : Nat} : ∀ {members : List (List Piece × Outline)}
    {fields : List (String × Json)}, ofMembers? d members = some fields →
    ∀ f ∈ fields, ∃ o, ofOutline? d o = some f.2
  | [], _, h => by
    obtain rfl := Option.some.inj h
    exact nofun
  | (key, o) :: members, fields, h => by
    rw [ofMembers?] at h
    split at h
    · rename_i k w gs _ hw hgs
      obtain rfl := Option.some.inj h
      exact List.forall_mem_cons.mpr ⟨⟨o, hw⟩, exists_outline_of_mem hgs⟩
    · cases h

/-! ### How texts begin -/

/-- A text that is read as null begins with an `n`, but for blanks. -/
theorem skipBlanks_of_value?_null {input rest : Outline.Input}
    (h : value? input = some (.null, rest)) : ∃ more, skipBlanks input = some 'n' :: more := by
  have hother {α : Type} {x : Option α} {f : α → Outline × Outline.Input}
      (h : x.map f = some (.null, rest)) (hf : ∀ a, (f a).1 ≠ .null) : False := by
    obtain ⟨a, -, ha⟩ := Option.map_eq_some_iff.mp h
    exact hf a (congrArg Prod.fst ha)
  rw [Outline.value?_eq] at h
  split at h
  case h_4 more hskip => exact ⟨more, hskip⟩
  case h_1 =>
    split at h
    · cases h
    · exact (hother h fun _ => nofun).elim
  case h_2 =>
    split at h
    · cases h
    · exact (hother h fun _ => nofun).elim
  all_goals exact (hother h fun _ => nofun).elim

/-- A text that does not begin with a blank or an `n` is not read as null. -/
theorem read?_encode_ne_null {cs : List Char}
    (h : ∀ c ∈ cs.head?, isBlank (some c) = false ∧ c ≠ 'n') :
    read? (Text.Utf8.encode cs) ≠ some .null := by
  intro hnull
  obtain ⟨o, ho, hv⟩ := Option.bind_eq_some_iff.mp hnull
  obtain rfl := (of_ofOutline? hv).2 rfl
  rw [Outline.read?_eq, Text.Utf8.decode_encode] at ho
  split at ho
  · rename_i v rest hvalue
    split_ifs at ho
    obtain rfl := Option.some.inj ho
    obtain ⟨more, hskip⟩ := skipBlanks_of_value?_null hvalue
    cases cs with
    | nil => cases hskip
    | cons c cs =>
      obtain ⟨hblank, hne⟩ := h c rfl
      rw [List.map_cons, Outline.skipBlanks_cons hblank] at hskip
      exact hne (Option.some.inj (List.cons.inj hskip).1)
  · cases ho

/-! ### The characters of numbers -/

/-- The characters of written numbers. -/
def isNumeric (c : Char) : Bool := c.isDigit || c == '-' || c == '+' || c == '.' || c == 'e'

theorem not_blank_of_isNumeric {c : Char} (h : isNumeric c = true) :
    isBlank (some c) = false ∧ c ≠ 'n' := by
  constructor
  · rw [Bool.eq_false_iff]
    intro hblank
    simp only [isBlank, Bool.or_eq_true, beq_iff_eq] at hblank
    rcases hblank with ((rfl | rfl) | rfl) | rfl <;> cases h
  · rintro rfl
    cases h

theorem isNumeric_of_isDigit {c : Char} (h : c.isDigit = true) : isNumeric c = true := by
  simp [isNumeric, h]

theorem isNumeric_of_mem_toDigits {n : Nat} {c : Char} (h : c ∈ Nat.toDigits 10 n) :
    isNumeric c = true :=
  isNumeric_of_isDigit (Nat.isDigit_of_mem_toDigits (by decide) (by decide) h)

theorem numeric_zeros (n : Nat) : ∀ c ∈ List.replicate n '0', isNumeric c = true := by
  intro c hc
  rw [List.eq_of_mem_replicate hc]
  rfl

theorem numeric_writeExponent (l : Layout) (e : Int) :
    ∀ c ∈ l.writeExponent e, isNumeric c = true := by
  unfold Layout.writeExponent
  refine List.forall_mem_cons.mpr ⟨rfl, List.forall_mem_cons.mpr ⟨?_, ?_⟩⟩
  · split_ifs <;> rfl
  · exact List.forall_mem_append.mpr
      ⟨numeric_zeros _, fun c hc => isNumeric_of_mem_toDigits hc⟩

theorem numeric_writeDecimal (l : Layout) {d : Decimal}
    (h : ∀ c ∈ d.digits, isNumeric c = true) : ∀ c ∈ l.writeDecimal d, isNumeric c = true := by
  have htake (n : Nat) : ∀ c ∈ d.digits.take n, isNumeric c = true := fun c hc =>
    h c (List.mem_of_mem_take hc)
  have hdrop (n : Nat) : ∀ c ∈ d.digits.drop n, isNumeric c = true := fun c hc =>
    h c (List.mem_of_mem_drop hc)
  unfold Layout.writeDecimal
  dsimp only
  by_cases hpositional : l.isPositional (d.point - 1) = true
  · rw [if_pos hpositional]
    split_ifs
    · simp only [List.forall_mem_cons, List.forall_mem_append]
      exact ⟨rfl, rfl, numeric_zeros _, h⟩
    · simp only [List.forall_mem_append]
      exact ⟨⟨h, numeric_zeros _⟩, List.all_eq_true.mp rfl⟩
    · simp only [List.forall_mem_append]
      exact ⟨⟨h, numeric_zeros _⟩, nofun⟩
    · simp only [List.forall_mem_cons, List.forall_mem_append]
      exact ⟨htake _, rfl, hdrop _⟩
  · rw [if_neg hpositional]
    simp only [List.forall_mem_append]
    refine ⟨⟨htake 1, ?_⟩, numeric_writeExponent l _⟩
    split
    · split_ifs <;> exact List.all_eq_true.mp rfl
    · exact List.forall_mem_cons.mpr ⟨rfl, hdrop 1⟩

theorem numeric_write (l : Layout) (tie : Tie) (x : Binary64) :
    ∀ c ∈ x.write l tie, isNumeric c = true := by
  unfold Binary64.write
  refine List.forall_mem_append.mpr ⟨?_, ?_⟩
  · unfold Binary64.signText
    split_ifs <;> exact List.all_eq_true.mp rfl
  · split_ifs
    · unfold Layout.writeZero
      split_ifs <;> exact List.all_eq_true.mp rfl
    · refine numeric_writeDecimal l fun c hc => ?_
      have hmem := (List.dropWhile_sublist _).mem (List.mem_reverse.mp hc)
      exact isNumeric_of_mem_toDigits (List.mem_reverse.mp hmem)

theorem numeric_writeInt (i : Int) : ∀ c ∈ writeInt i, isNumeric c = true := by
  unfold writeInt
  refine List.forall_mem_append.mpr ⟨?_, fun c hc => isNumeric_of_mem_toDigits hc⟩
  split_ifs <;> exact List.all_eq_true.mp rfl

/-- The text of a value other than null is not read as null, if it is no number that is not
finite. -/
theorem read?_bytes_ne_null {v : Json} (hnull : v ≠ .null) (hfinite : v.FiniteNumber) :
    read? v.bytes ≠ some .null := by
  apply read?_encode_ne_null
  have hnumeric {cs : List Char} (h : ∀ c ∈ cs, isNumeric c = true) :
      ∀ c ∈ cs.head?, isBlank (some c) = false ∧ c ≠ 'n' := fun c hc =>
    not_blank_of_isNumeric (h c (List.mem_of_mem_head? hc))
  cases v with
  | null => exact absurd rfl hnull
  | bool b =>
    rw [compact]
    cases b with
    | true =>
      rintro c ⟨⟩
      decide
    | false =>
      rintro c ⟨⟩
      decide
  | number n =>
    cases n with
    | integer i => exact hnumeric (numeric_writeInt i)
    | float x =>
      have htext : (Json.number (.float x)).compact = x.write floatLayout .even := if_pos hfinite
      rw [htext]
      exact hnumeric (numeric_write _ _ x)
  | string s =>
    rw [compact, writeString]
    rintro c ⟨⟩
    decide
  | array items =>
    rw [compact]
    rintro c ⟨⟩
    decide
  | object fields =>
    rw [compact]
    rintro c ⟨⟩
    decide

end ShopTables.Json
