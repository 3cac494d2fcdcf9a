import Mathlib.Data.List.TakeWhile
import ShopTables.Binary64.Layout
import ShopTables.Json.Printer
import ShopTables.Proofs.Binary64.Rounding

/-!
# Integers as they are shown

```
    i  --ofInt-->  x  --shortest-->  k · 10 ^ p  --writeDecimal-->  digits of k · 10 ^ p
```

A number that is an integer is shown as one. Seventeen grids always suffice to find its shortest
decimal, and none finer than that of the integers is needed (`HasSize.exists_shortest`). So the
decimal is an integer of the number's interval, and goes to that number (`HasSize.exists_display`).
An integer that is kept as the nearest number is hence shown as an integer that goes to the same
number, and as itself up to 2 ^ 53 (`display_ofInt`).
-/

namespace ShopTables.Binary64

/-! ### The grids -/

section

variable {tie : Tie} {m unit den : Nat} {i : Interval} {place : Int}

/-- A grid gives one of the two neighbours of the number, if one of them is in the interval. -/
theorem onGrid?_cases (tie : Tie) (m : Nat) (i : Interval) (unit den : Nat) (place : Int) :
    let step := den * 10 ^ place.toNat
    let scaled := unit * 10 ^ (-place).toNat
    let down := 4 * m * scaled / step
    (onGrid? tie m i unit den place = none ∧ i.holds (down * step) scaled = false
        ∧ i.holds ((down + 1) * step) scaled = false)
      ∨ ∃ k, onGrid? tie m i unit den place = some k ∧ i.holds (k * step) scaled = true := by
  intro step scaled down
  unfold onGrid?
  dsimp only [Nat.pow_eq]
  cases hdown : i.holds (down * step) scaled with
  | false =>
    cases hup : i.holds ((down + 1) * step) scaled with
    | false => exact .inl ⟨rfl, rfl, rfl⟩
    | true => exact .inr ⟨_, rfl, hup⟩
  | true =>
    cases hup : i.holds ((down + 1) * step) scaled with
    | false => exact .inr ⟨_, rfl, hdown⟩
    | true =>
      right
      dsimp only
      split
      · exact ⟨_, rfl, hdown⟩
      · exact ⟨_, rfl, hup⟩
      · cases tie with
        | up => exact ⟨_, rfl, hup⟩
        | even =>
          refine ⟨_, rfl, ?_⟩
          split_ifs
          · exact hdown
          · exact hup

/-- What a grid of whole numbers gives is in the interval. -/
theorem holds_of_onGrid? {k p : Nat} (h : onGrid? tie m i unit den p = some k) :
    i.holds (k * 10 ^ p * den) unit = true := by
  obtain ⟨hnone, -⟩ | ⟨k', hk', hholds⟩ := onGrid?_cases tie m i unit den p
  · rw [hnone] at h
    cases h
  · rw [hk'] at h
    obtain rfl := Option.some.inj h
    rwa [Int.toNat_natCast, Int.toNat_neg_natCast, Nat.pow_zero, Nat.mul_one, Nat.mul_comm den,
      ← Nat.mul_assoc] at hholds

theorem isSome_onGrid? {p step : Nat} (hstep : step = den * 10 ^ p)
    (h : i.holds (4 * m * unit / step * step) unit = true
      ∨ i.holds ((4 * m * unit / step + 1) * step) unit = true) :
    (onGrid? tie m i unit den p).isSome = true := by
  subst hstep
  have hcases := onGrid?_cases tie m i unit den p
  rw [Int.toNat_natCast, Int.toNat_neg_natCast, Nat.pow_zero, Nat.mul_one] at hcases
  obtain ⟨-, hdown, hup⟩ | ⟨k, hk, -⟩ := hcases
  · rcases h with h | h
    · rw [hdown] at h
      cases h
    · rw [hup] at h
      cases h
  · rw [hk]
    rfl

/-- The search ends on a grid that gives something, no finer than one that is known to. -/
theorem firstGrid_of_isSome {fuel : Nat} {last : Int}
    (h : (onGrid? tie m i unit den last).isSome = true) (hlast : last ≤ place)
    (hfuel : place - last < fuel) :
    ∃ k p, firstGrid tie m i unit den fuel place = (k, p) ∧ last ≤ p
      ∧ onGrid? tie m i unit den p = some k := by
  induction fuel generalizing place with
  | zero => omega
  | succ fuel ih =>
    rw [firstGrid]
    cases hgrid : onGrid? tie m i unit den place with
    | some k => exact ⟨k, place, rfl, hlast, hgrid⟩
    | none =>
      have hne : place ≠ last := by
        rintro rfl
        rw [hgrid] at h
        cases h
      exact ih (by omega) (by omega)

end

/-! ### Digits -/

theorem le_pow_decimalLength (n : Nat) : n < 10 ^ decimalLength n :=
  (Nat.length_toDigits_le_iff (by decide) Nat.length_toDigits_pos).mp (Nat.le_refl _)

theorem decimalLength_le {n k : Nat} (hk : 0 < k) (h : n < 10 ^ k) : decimalLength n ≤ k :=
  (Nat.length_toDigits_le_iff (by decide) hk).mpr h

theorem pow_le_of_decimalLength {n k : Nat} (hn : 0 < n) (h : k < decimalLength n) :
    10 ^ k ≤ n := by
  rcases Nat.eq_zero_or_pos k with rfl | hk
  · exact hn
  · by_contra hlt
    exact absurd (decimalLength_le hk (Nat.not_le.mp hlt)) (Nat.not_le.mpr h)

/-- An integer has a digit before the point, and is not less than the power of ten of its first
digit. -/
theorem pointPlace_integral {n den : Nat} (hn : 0 < n) (hden : 0 < den) :
    ∃ length : Nat, pointPlace (n * den) den = length + 1 ∧ 10 ^ length ≤ n := by
  have hmul : den ≤ n * den := Nat.le_mul_of_pos_left den hn
  have hle : decimalLength den ≤ decimalLength (n * den) :=
    decimalLength_le Nat.length_toDigits_pos (hmul.trans_lt (le_pow_decimalLength _))
  obtain ⟨e, he⟩ := Nat.exists_eq_add_of_le hle
  have hdiff : (decimalLength (n * den) : Int) - decimalLength den = e := by omega
  rw [pointPlace]
  simp only [hdiff, Nat.pow_eq, Int.toNat_natCast, Int.toNat_neg_natCast, Nat.pow_zero,
    Nat.mul_one]
  split_ifs with hfits
  · refine ⟨e, rfl, Nat.le_of_mul_le_mul_right ?_ hden⟩
    rwa [Nat.mul_comm]
  · cases e with
    | zero => exact absurd (by simpa using hmul) hfits
    | succ e =>
      refine ⟨e, by omega, ?_⟩
      have hpow : 10 ^ (decimalLength den + e) ≤ n * den :=
        pow_le_of_decimalLength (Nat.mul_pos hn hden) (by omega)
      have hlt : n * den < n * 10 ^ decimalLength den :=
        Nat.mul_lt_mul_of_pos_left (le_pow_decimalLength den) hn
      rw [pow_add, Nat.mul_comm] at hpow
      exact Nat.le_of_mul_le_mul_right (hpow.trans hlt.le) (Nat.pow_pos (by decide))

theorem toDigits_mul_pow {k : Nat} (hk : 0 < k) (p : Nat) :
    Nat.toDigits 10 (k * 10 ^ p) = Nat.toDigits 10 k ++ List.replicate p '0' := by
  induction p with
  | zero => rw [Nat.pow_zero, Nat.mul_one, List.replicate_zero, List.append_nil]
  | succ p ih =>
    have hpos : 0 < k * 10 ^ p := Nat.mul_pos hk (Nat.pow_pos (by decide))
    have hsucc : k * 10 ^ (p + 1) = 10 * (k * 10 ^ p) + 0 := by
      rw [pow_succ', Nat.mul_left_comm, Nat.add_zero]
    rw [hsucc, ← Nat.toDigits_append_toDigits (by decide) hpos (by decide), ih,
      List.replicate_succ', ← List.append_assoc]
    rfl

/-- Only zeros are left off. -/
theorem exists_toDigits_eq (k : Nat) : ∃ zeros : Nat,
    Nat.toDigits 10 k = Decimal.significantDigits k ++ List.replicate zeros '0' := by
  have hzero : ∀ c ∈ (Nat.toDigits 10 k).reverse.takeWhile (· == '0'), c = '0' := by
    intro c hc
    exact beq_iff_eq.mp (List.mem_takeWhile_imp (p := (· == '0')) hc)
  have hzeros : (Nat.toDigits 10 k).reverse.takeWhile (· == '0') = List.replicate
      ((Nat.toDigits 10 k).reverse.takeWhile (· == '0')).length '0' :=
    List.eq_replicate_iff.mpr ⟨rfl, hzero⟩
  refine ⟨((Nat.toDigits 10 k).reverse.takeWhile (· == '0')).length, ?_⟩
  rw [Decimal.significantDigits, ← List.reverse_replicate, ← hzeros, ← List.reverse_append,
    List.takeWhile_append_dropWhile, List.reverse_reverse]

/-- An integer is written with all its digits. -/
theorem writeDecimal_ofCoefficient {k : Nat} (hk : 0 < k) (p : Nat) :
    displayLayout.writeDecimal (.ofCoefficient k p) = Nat.toDigits 10 (k * 10 ^ p) := by
  obtain ⟨zeros, hzeros⟩ := exists_toDigits_eq k
  have hpositive : 0 < decimalLength k := Nat.length_toDigits_pos
  have hlength : decimalLength k = (Decimal.significantDigits k).length + zeros := by
    rw [decimalLength, hzeros, List.length_append, List.length_replicate]
  have hpoint : ((decimalLength k : Int) + p).toNat = decimalLength k + p := by omega
  have hpositional : displayLayout.isPositional (decimalLength k + p - 1) = true := rfl
  have hwhole : displayLayout.wholeFraction = false := rfl
  rw [Layout.writeDecimal, Decimal.ofCoefficient]
  dsimp only
  rw [if_pos hpositional, if_neg (by omega), hpoint, if_pos (by omega), hwhole,
    if_neg Bool.false_ne_true, List.append_nil, toDigits_mul_pow hk, hzeros, List.append_assoc,
    List.replicate_append_replicate, hlength]
  congr 2
  omega

theorem writeInt_signed (negative : Bool) {n : Nat} (hn : 0 < n) :
    Json.writeInt (signed negative n) = (if negative then ['-'] else []) ++ Nat.toDigits 10 n := by
  cases negative with
  | true =>
    rw [signed, if_pos rfl, if_pos rfl, Json.writeInt, if_pos (by omega), Int.natAbs_neg,
      Int.natAbs_natCast]
  | false =>
    rw [signed, if_neg Bool.false_ne_true, if_neg Bool.false_ne_true, Json.writeInt,
      if_neg (by omega), Int.natAbs_natCast]

/-! ### The shortest decimal of an integer -/

namespace HasSize

variable {tie : Tie} {x : Binary64} {n : Nat}

/-- The grid of all integers has the number itself. -/
theorem isSome_onGrid?_zero (h : x.HasSize n) :
    (onGrid? tie x.significand x.interval x.quarterNum x.quarterDen (0 : Nat)).isSome = true := by
  refine isSome_onGrid? (Nat.mul_one x.quarterDen).symm (.inl ?_)
  have hunit := x.quarterNum_pos
  have hrange := h.significand_range
  have hcases := h.low_cases
  rw [quarters_eq h.eq, Nat.mul_div_cancel _ x.quarterDen_pos, ← quarters_eq h.eq]
  apply Interval.holds_of_lt
  · exact Nat.mul_lt_mul_of_pos_right (by omega) hunit
  · rw [high_eq]
    exact Nat.mul_lt_mul_of_pos_right (by omega) hunit

/-- A grid on which the number has seventeen digits has one of its interval: the steps are smaller
than the last place, and smaller than half of it if the significand is the least. -/
theorem isSome_onGrid?_of_le (h : x.HasSize n) {p : Nat} (hp : 10 ^ 16 * 10 ^ p ≤ n) :
    (onGrid? tie x.significand x.interval x.quarterNum x.quarterDen p).isSome = true := by
  have hrange := h.significand_range
  have hstep : 10 ^ 16 * (x.quarterDen * 10 ^ p) ≤ 4 * x.significand * x.quarterNum := by
    rw [quarters_eq h.eq, Nat.mul_left_comm, Nat.mul_comm]
    exact Nat.mul_le_mul_right _ hp
  have hsize : 4 * x.significand * x.quarterNum < 36028797018963968 * x.quarterNum :=
    Nat.mul_lt_mul_of_pos_right (by omega) x.quarterNum_pos
  have hpos : 0 < x.quarterDen * 10 ^ p := Nat.mul_pos x.quarterDen_pos (Nat.pow_pos (by decide))
  refine isSome_onGrid? rfl ?_
  generalize x.quarterDen * 10 ^ p = step at hstep hpos ⊢
  have hsplit := Nat.div_add_mod' (4 * x.significand * x.quarterNum) step
  have hrest := Nat.mod_lt (4 * x.significand * x.quarterNum) hpos
  have hhigh : x.interval.high * x.quarterNum
      = 4 * x.significand * x.quarterNum + 2 * x.quarterNum := by
    rw [high_eq, Nat.add_mul]
  have hup : (4 * x.significand * x.quarterNum / step + 1) * step
      = 4 * x.significand * x.quarterNum / step * step + step := Nat.succ_mul _ _
  generalize 4 * x.significand * x.quarterNum % step = rest at hsplit hrest
  generalize 4 * x.significand * x.quarterNum / step * step = down at hsplit hup ⊢
  obtain ⟨-, hlow⟩ | ⟨hleast, hlow⟩ := h.low_cases
  · have hlow' : x.interval.low * x.quarterNum
        = 4 * x.significand * x.quarterNum - 2 * x.quarterNum := by
      rw [hlow, Nat.sub_mul]
    rcases Nat.lt_or_ge rest (2 * x.quarterNum) with hnear | hfar
    · exact .inl (Interval.holds_of_lt (by omega) (by omega))
    · exact .inr (Interval.holds_of_lt (by omega) (by omega))
  · have hlow' : x.interval.low * x.quarterNum
        = 4 * x.significand * x.quarterNum - x.quarterNum := by
      rw [hlow, Nat.sub_mul, Nat.one_mul]
    rw [hleast] at hsplit hlow' hhigh hstep
    rcases Nat.lt_or_ge rest x.quarterNum with hnear | hfar
    · exact .inl (Interval.holds_of_lt (by omega) (by omega))
    · exact .inr (Interval.holds_of_lt (by omega) (by omega))

/-- The shortest decimal of an integer is an integer of its interval. -/
theorem exists_shortest (h : x.HasSize n) (tie : Tie) :
    ∃ k p : Nat, x.shortest tie = .ofCoefficient k p
      ∧ x.interval.holds (k * 10 ^ p * x.quarterDen) x.quarterNum = true := by
  obtain ⟨length, hplace, hlength⟩ := pointPlace_integral h.pos x.denominator_pos
  rw [← h.eq] at hplace
  -- the last grid that is needed: that of the integers, or that of seventeen digits
  have hlast : ∃ last : Nat, last ≤ length ∧ length - last < 17
      ∧ (onGrid? tie x.significand x.interval x.quarterNum x.quarterDen last).isSome = true := by
    rcases Nat.lt_or_ge length 17 with hshort | hlong
    · exact ⟨0, Nat.zero_le _, hshort, h.isSome_onGrid?_zero⟩
    · refine ⟨length - 16, by omega, by omega, h.isSome_onGrid?_of_le ?_⟩
      rw [← pow_add]
      exact (Nat.pow_le_pow_right (by decide) (by omega)).trans hlength
  obtain ⟨last, hle, hfuel, hgrid⟩ := hlast
  obtain ⟨k, p, hfirst, hp, hfound⟩ := firstGrid_of_isSome hgrid
    (show (last : Int) ≤ length by omega) (show (length : Int) - last < (17 : Nat) by omega)
  obtain ⟨p, rfl⟩ := Int.eq_ofNat_of_zero_le ((Int.natCast_nonneg last).trans hp)
  refine ⟨k, p, ?_, holds_of_onGrid? hfound⟩
  have hstart : (length : Int) + 1 - 1 = length := by omega
  rw [quarterNum, quarterDen] at hfirst
  rw [shortest]
  simp only [hplace, hstart, hfirst]

theorem ne_zero (h : x.HasSize n) (negative : Bool) : x ≠ zero negative := by
  rintro rfl
  have hleast : 4503599627370496 ≤ 0 := h.significand_range.1
  cases hleast

/-- A number that is an integer is shown as an integer that goes to it, and as itself if its last
place counts for one at most. -/
theorem exists_display (h : x.HasSize n) :
    ∃ k : Nat, x.display = Json.writeInt (signed x.negative k)
      ∧ ofInt (signed x.negative k) = x ∧ (x.scale ≤ 0 → k = n) := by
  obtain ⟨k, p, hshortest, hholds⟩ := h.exists_shortest .up
  have hround := h.ofRatio_of_holds hholds
  have hnan : x.isNaN = false := by
    rw [isNaN, beq_eq_false_iff_ne.mpr (isFinite_iff.mp h.finite), Bool.false_and]
  have hzero : x.isZero = false := by
    have hleast := h.significand_range.1
    rw [isZero, Bool.and_eq_false_iff, beq_eq_false_iff_ne, beq_eq_false_iff_ne]
    rw [significand] at hleast
    split_ifs at hleast with hexponent
    · right
      omega
    · exact .inl hexponent
  have hpos : 0 < k * 10 ^ p := by
    rw [Nat.pos_iff_ne_zero]
    intro hnone
    rw [hnone] at hround
    exact h.ne_zero x.negative hround.symm
  have hk : 0 < k := Nat.pos_of_mul_pos_right hpos
  refine ⟨k * 10 ^ p, ?_, (ofInt_signed x.negative hpos).trans hround,
    fun hscale => h.eq_of_holds hscale hholds⟩
  rw [display, hnan, if_neg Bool.false_ne_true, if_pos h.finite, write, hzero,
    if_neg Bool.false_ne_true, hshortest, writeDecimal_ofCoefficient hk, writeInt_signed _ hpos,
    signText]

end HasSize

/-! ### Integers that go to the nearest number -/

/-- What a significand of 53 bits and a scale make. -/
theorem ofScaled_fields (negative : Bool) {m : Nat} {q : Int} (hleast : 4503599627370496 ≤ m)
    (hmost : m < 9007199254740992) (hsmall : -1074 ≤ q) (hlarge : q ≤ 971) :
    (ofScaled negative m q).isFinite = true ∧ (ofScaled negative m q).negative = negative
      ∧ (ofScaled negative m q).significand = m ∧ (ofScaled negative m q).scale = q := by
  have hfraction : (Fin.ofNat 4503599627370496 (m - 4503599627370496)).val
      = m - 4503599627370496 := Nat.mod_eq_of_lt (by omega)
  have hexponent : (Fin.ofNat 2048 (q + 1075).toNat).val = (q + 1075).toNat :=
    Nat.mod_eq_of_lt (by omega)
  have hmade : ofScaled negative m q = ⟨negative, Fin.ofNat _ (q + 1075).toNat,
      Fin.ofNat _ (m - 4503599627370496)⟩ := by
    rw [ofScaled, if_neg (by omega)]
    simp only [if_neg (show m ≠ 9007199254740992 by omega), if_neg (show ¬ 971 < q by omega)]
  rw [hmade, isFinite_iff, significand, scale, hexponent, hfraction, if_neg (by omega),
    if_neg (by omega)]
  exact ⟨by omega, rfl, by omega, by omega⟩

theorem roundHalfEven_range (num den : Nat) :
    num / den ≤ roundHalfEven num den ∧ roundHalfEven num den ≤ num / den + 1 := by
  rw [roundHalfEven]
  split_ifs
  · omega
  · omega

theorem hasSize_numerator {x : Binary64} (hfinite : x.isFinite = true)
    (hleast : 4503599627370496 ≤ x.significand) (hscale : 0 ≤ x.scale) :
    x.HasSize x.numerator := by
  have hden : x.denominator = 1 := by
    rw [denominator, Int.toNat_eq_zero.mpr (by omega), Nat.pow_eq, Nat.pow_zero]
  have hpos : 0 < x.numerator := Nat.mul_pos (by omega) (Nat.two_pow_pos _)
  exact ⟨hfinite, hpos, by rw [hden, Nat.mul_one]⟩

/-- With a last place of one at least, every significand makes a number that is an integer. -/
theorem exists_hasSize_ofScaled (negative : Bool) {m d : Nat} (hleast : 4503599627370496 ≤ m)
    (hmost : m ≤ 9007199254740992) (hd : d < 971) :
    ∃ n, (ofScaled negative m d).HasSize n ∧ (ofScaled negative m d).negative = negative := by
  obtain ⟨m', q, hm, hm', hq, hq', hmade⟩ : ∃ (m' : Nat) (q : Int), 4503599627370496 ≤ m'
      ∧ m' < 9007199254740992 ∧ 0 ≤ q ∧ q ≤ 971
      ∧ ofScaled negative m d = ofScaled negative m' q := by
    rcases Nat.lt_or_eq_of_le hmost with hlt | rfl
    · exact ⟨m, d, hleast, hlt, by omega, by omega, rfl⟩
    · exact ⟨_, d + 1, by decide, by decide, by omega, by omega, ofScaled_carried negative d⟩
  obtain ⟨hfinite, hnegative, hsignificand, hscale⟩ :=
    ofScaled_fields negative hm hm' (by omega) hq'
  rw [hmade]
  exact ⟨_, hasSize_numerator hfinite (by omega) (by omega), hnegative⟩

/-- A positive integer goes to a number that is an integer, and below 2 ^ 53 is that number. -/
theorem exists_hasSize_ofRatio (negative : Bool) {n : Nat} (hn : n ≠ 0)
    (hrange : n < 18446744073709551616) :
    ∃ n', (ofRatio negative n 1).HasSize n' ∧ (ofRatio negative n 1).negative = negative
      ∧ (n < 9007199254740992 → n' = n ∧ (ofRatio negative n 1).scale ≤ 0) := by
  have hlog : Nat.log2 n < 64 := (Nat.log2_lt hn).mpr hrange
  obtain ⟨q, hq⟩ : ∃ q : Int, (Nat.log2 n : Int) = 52 + q := ⟨Nat.log2 n - 52, by omega⟩
  rw [ofRatio_integer hn hq, Nat.pow_eq, Nat.pow_eq]
  rcases Int.lt_or_le 0 q with hlarge | hsmall
  · obtain ⟨d, rfl⟩ := Int.eq_ofNat_of_zero_le hlarge.le
    have hbits : Nat.log2 n = 52 + d := by omega
    rw [Nat.log2_eq_iff hn, show 52 + d + 1 = 53 + d by omega, pow_add, pow_add] at hbits
    rw [Int.toNat_natCast, Int.toNat_neg_natCast, Nat.pow_zero, Nat.mul_one]
    obtain ⟨hdown, hup⟩ := roundHalfEven_range n (2 ^ d)
    have hleast : 4503599627370496 ≤ n / 2 ^ d :=
      (Nat.le_div_iff_mul_le (Nat.two_pow_pos d)).mpr hbits.1
    have hmost : n / 2 ^ d < 9007199254740992 := Nat.div_lt_of_lt_mul (by omega)
    obtain ⟨n', hsize, hnegative⟩ := exists_hasSize_ofScaled negative (hleast.trans hdown)
      (hup.trans (Nat.succ_le_of_lt hmost)) (show d < 971 by omega)
    refine ⟨n', hsize, hnegative, fun hlt => ?_⟩
    have hpow : 2 ^ 1 ≤ 2 ^ d := Nat.pow_le_pow_right Nat.two_pos (by omega)
    omega
  · have hm : (Nat.log2 (n * 2 ^ (-q).toNat)) = 52 := by
      have hshift := log2_mul_two_pow hn (-q).toNat
      rw [Nat.pow_eq] at hshift
      omega
    have hne : n * 2 ^ (-q).toNat ≠ 0 := Nat.mul_ne_zero hn (Nat.ne_of_gt (Nat.two_pow_pos _))
    rw [Nat.log2_eq_iff hne] at hm
    have hround : roundHalfEven (n * 2 ^ (-q).toNat) (2 ^ q.toNat) = n * 2 ^ (-q).toNat := by
      have hone : 2 ^ q.toNat = 1 := by rw [Int.toNat_eq_zero.mpr hsmall, Nat.pow_zero]
      have := roundHalfEven_mul (n * 2 ^ (-q).toNat) Nat.one_pos
      rwa [Nat.mul_one, ← hone] at this
    obtain ⟨hfinite, hnegative, hsignificand, hscale⟩ :=
      ofScaled_fields negative hm.1 hm.2 (q := q) (by omega) (by omega)
    rw [hround]
    refine ⟨n, ⟨hfinite, Nat.pos_of_ne_zero hn, ?_⟩, hnegative, fun _ => ⟨rfl, hscale.trans_le hsmall⟩⟩
    rw [numerator, denominator, hsignificand, hscale, Int.toNat_eq_zero.mpr hsmall]
    exact Nat.mul_one _

/-- An integer other than zero goes to a number that is an integer, of its sign; below 2 ^ 53 to
itself. -/
theorem exists_hasSize_ofInt {i : Int} (hi : i ≠ 0) (hrange : i.natAbs < 18446744073709551616) :
    ∃ n, (ofInt i).HasSize n ∧ (ofInt i).negative = decide (i < 0)
      ∧ (i.natAbs < 9007199254740992 → n = i.natAbs ∧ (ofInt i).scale ≤ 0) :=
  exists_hasSize_ofRatio (i < 0) (Int.natAbs_ne_zero.mpr hi) hrange

/-- An integer of 64 bits, with or without sign, goes to a number that is not minus zero. -/
theorem ofInt_ne_zero {i : Int} (hrange : i.natAbs < 18446744073709551616) :
    ofInt i ≠ .zero true := by
  by_cases hi : i = 0
  · subst hi
    decide
  · obtain ⟨n, hsize, -⟩ := exists_hasSize_ofInt hi hrange
    exact hsize.ne_zero true

/-- An integer of 64 bits, with or without sign, is shown as one that goes to the same number, and
as itself up to 2 ^ 53. -/
theorem display_ofInt {i : Int} (hrange : i.natAbs < 18446744073709551616) :
    ∃ j, (ofInt i).display = Json.writeInt j ∧ ofInt j = ofInt i
      ∧ (i.natAbs ≤ 9007199254740992 → j = i) := by
  by_cases hzero : i = 0
  · subst hzero
    exact ⟨0, by decide, rfl, fun _ => rfl⟩
  by_cases hend : i.natAbs = 9007199254740992
  · obtain rfl | rfl : i = 9007199254740992 ∨ i = -9007199254740992 := by omega
    · exact ⟨_, by decide +kernel, rfl, fun _ => rfl⟩
    · exact ⟨_, by decide +kernel, rfl, fun _ => rfl⟩
  obtain ⟨n, hsize, hnegative, hexact⟩ := exists_hasSize_ofInt hzero hrange
  obtain ⟨k, hdisplay, hround, hself⟩ := hsize.exists_display
  refine ⟨_, hdisplay, hround, fun hsmall => ?_⟩
  obtain ⟨rfl, hscale⟩ := hexact (by omega)
  rw [hself hscale, hnegative, signed]
  simp only [decide_eq_true_eq]
  split_ifs
  · omega
  · omega

/-- Beyond, an integer may be shown as another. -/
example : (ofInt 9007199254740993).display = Json.writeInt 9007199254740992 := by decide +kernel

end ShopTables.Binary64

namespace ShopTables.Json

/-- Different integers are written differently. -/
theorem writeInt_injective {i j : Int} (h : writeInt i = writeInt j) : i = j := by
  have hdigits : ∀ n cs, '-' :: cs ≠ Nat.toDigits 10 n := by
    intro n cs heq
    have hminus : '-' ∈ Nat.toDigits 10 n := heq ▸ List.mem_cons_self
    exact absurd (Nat.isDigit_of_mem_toDigits (by decide) (by decide) hminus) (by decide)
  have hread : ∀ {n m : Nat}, Nat.toDigits 10 n = Nat.toDigits 10 m → n = m := by
    intro n m heq
    rw [← Nat.ofDigitChars_ten_toDigits (n := n), heq, Nat.ofDigitChars_ten_toDigits]
  rw [writeInt, writeInt] at h
  split_ifs at h
  · have := hread (List.cons.inj h).2
    omega
  · exact absurd h (hdigits _ _)
  · exact absurd h.symm (hdigits _ _)
  · have := hread h
    omega

end ShopTables.Json
