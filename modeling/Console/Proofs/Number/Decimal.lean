import Mathlib.Algebra.Order.Floor.Semiring
import Mathlib.Data.Rat.Floor
import Console.Number.Decimal
import Console.Proofs.Json.Leaves
import Console.Proofs.Number.Rounding

/-! # Decimals that are read and written

    A decimal is read as the number nearest to it, so another scale makes another number, unless
    both are zero or beyond the range. Whole numbers below `2^53` are read and written as they
    are:

    - `ofDecimal_eq_ofDecimal_iff`: when the scale of a decimal does not matter,
    - `ofDecimal_whole`: whole numbers that are read,
    - `Rounding.holds_iff`: of all whole numbers only the number itself reads back, whatever
      zeros it ends in, so that the search for fewer digits finds no other,
    - `text_whole`: whole numbers that are written,
    - `text_truncate`: the integer part of a number, as it is written.
-/

namespace Console

namespace Binary64

/-! ### Decimals that are read -/

theorem tenTo_pos (n : Nat) : 0 < tenTo n := Nat.pow_pos (by decide)

/-- A power of ten as the ratio of two natural powers, one of which is one. -/
theorem ten_zpow (e : Int) : (10 : ℚ) ^ e = tenTo e.toNat / tenTo (-e).toNat := by
  have he : e = (e.toNat : Int) - ((-e).toNat : Int) := by omega
  conv_lhs => rw [he]
  rw [zpow_sub₀ (by norm_num), zpow_natCast, zpow_natCast]
  simp [tenTo]

/-- The ratio that a decimal is read from is its value. -/
theorem decimal_ratio (digits : Nat) (e : Int) :
    ((digits * tenTo e.toNat : Nat) : ℚ) / (tenTo (-e).toNat : Nat) = digits * 10 ^ e := by
  rw [ten_zpow, Nat.cast_mul, mul_div_assoc]

/-- Rounding ends in a number or beyond all of them. -/
theorem nearest_cases (negative : Bool) (n d : Nat) :
    (∃ x, nearest negative n d = .finite x) ∨ nearest negative n d = .infinite negative := by
  have hpack : ∀ m q, (∃ x, pack negative m q = .finite x) ∨ pack negative m q = .infinite negative := by
    intro m q
    unfold pack
    split
    · exact .inl ⟨_, rfl⟩
    · exact .inr rfl
  by_cases hn : n = 0
  · exact .inl ⟨signedZero negative, by rw [nearest, if_pos hn]⟩
  · simp only [nearest, if_neg hn]
    split
    · exact hpack _ _
    · exact hpack _ _

/-- Ten times as much is never rounded to the same number, unless to zero: what is rounded to
    a number is at least half of it, and at most one and a half. -/
theorem not_lt_of_ofDecimal {negative : Bool} {digits : Nat} {e e' : Int} {x : Binary64}
    (h : ofDecimal negative digits e = .finite x) (h' : ofDecimal negative digits e' = .finite x)
    (hx : x.mantissa ≠ 0) : ¬ e < e' := by
  intro hlt
  obtain ⟨-, herror⟩ := nearest_error (tenTo_pos _) h
  obtain ⟨-, herror'⟩ := nearest_error (tenTo_pos _) h'
  rw [decimal_ratio, abs_le] at herror herror'
  have hunit : (0 : ℚ) < 2 ^ x.exponent := by positivity
  have hmag : (2 : ℚ) ^ x.exponent ≤ x.magnitude := by
    have hone : (1 : ℚ) ≤ x.mantissa := by exact_mod_cast Nat.one_le_iff_ne_zero.2 hx
    exact le_mul_of_one_le_left hunit.le hone
  have hscale : 10 * ((digits : ℚ) * 10 ^ e) ≤ digits * 10 ^ e' := by
    have hstep : (10 : ℚ) * 10 ^ e ≤ 10 ^ e' := by
      rw [mul_comm, ← zpow_add_one₀ (by norm_num)]
      exact zpow_le_zpow_right₀ (by norm_num) (by omega)
    calc 10 * ((digits : ℚ) * 10 ^ e) = digits * (10 * 10 ^ e) := by ring
      _ ≤ digits * 10 ^ e' := mul_le_mul_of_nonneg_left hstep (Nat.cast_nonneg _)
  linarith [herror.1, herror'.2]

/-- Two scales of the same digits make one number exactly if they are one scale, or if both
    numbers are zero or both beyond the range. -/
theorem ofDecimal_eq_ofDecimal_iff {negative : Bool} {digits : Nat} {e e' : Int} :
    ofDecimal negative digits e = ofDecimal negative digits e' ↔
      e = e' ∨
      (∃ x, x.isZero ∧ ofDecimal negative digits e = .finite x ∧
        ofDecimal negative digits e' = .finite x) ∨
      (ofDecimal negative digits e = .infinite negative ∧
        ofDecimal negative digits e' = .infinite negative) := by
  constructor
  · intro heq
    rcases nearest_cases negative (digits * tenTo e.toNat) (tenTo (-e).toNat) with ⟨x, hx⟩ | hinfinite
    · have h : ofDecimal negative digits e = .finite x := hx
      have h' : ofDecimal negative digits e' = .finite x := heq ▸ h
      by_cases hzero : x.mantissa = 0
      · exact .inr (.inl ⟨x, beq_iff_eq.2 hzero, h, h'⟩)
      · have hle := not_lt_of_ofDecimal h h' hzero
        have hge := not_lt_of_ofDecimal h' h hzero
        exact .inl (by omega)
    · have h : ofDecimal negative digits e = .infinite negative := hinfinite
      exact .inr (.inr ⟨h, heq ▸ h⟩)
  · rintro (rfl | ⟨x, -, h, h'⟩ | ⟨h, h'⟩)
    · rfl
    · rw [h, h']
    · rw [h, h']

/-- A whole number below `2^53` is read as it is. -/
theorem ofDecimal_whole (negative : Bool) {n : Nat} (h : n < 2 ^ 53) :
    ∃ x, ofDecimal negative n 0 = .finite x ∧ x.negative = negative ∧ x.magnitude = n := by
  obtain ⟨x, hx⟩ := exists_magnitude_eq h
  have hratio : ((n * tenTo (0 : Int).toNat : Nat) : ℚ) / (tenTo (-0 : Int).toNat : Nat) = x.magnitude := by
    rw [decimal_ratio, hx, zpow_zero, mul_one]
  exact ⟨{ x with negative := negative }, nearest_of_magnitude negative (tenTo_pos _) hratio, rfl, hx⟩

end Binary64

/-! ### Digits -/

/-- Zeros behind a number that is not zero multiply it by a power of ten. -/
theorem toDigits_mul_pow {n : Nat} (hn : 0 < n) (e : Nat) :
    Nat.toDigits 10 (n * 10 ^ e) = Nat.toDigits 10 n ++ List.replicate e '0' := by
  induction e with
  | zero => simp
  | succ e ih =>
    have hpos : 0 < n * 10 ^ e := Nat.mul_pos hn (Nat.pow_pos (by decide))
    have hstep : n * 10 ^ (e + 1) = 10 * (n * 10 ^ e) + 0 := by ring
    rw [hstep, ← Nat.toDigits_append_toDigits (by decide) hpos (by decide), ih, List.replicate_succ',
      List.append_assoc]
    rfl

theorem digitCount_eq {n : Nat} (hn : 0 < n) : digitCount n = (Nat.toDigits 10 n).length := by
  induction n using Nat.strong_induction_on with
  | h n ih =>
    rw [digitCount, if_neg hn.ne', Nat.toDigits_eq_if (by decide)]
    by_cases hsmall : n < 10
    · rw [if_pos hsmall, Nat.div_eq_of_lt hsmall, digitCount, if_pos rfl]
      rfl
    · rw [if_neg hsmall, ih (n / 10) (by omega) (by omega), List.length_append]
      rfl

theorem digitCount_mul_pow {n : Nat} (hn : 0 < n) (e : Nat) :
    digitCount (n * 10 ^ e) = digitCount n + e := by
  have hpos : 0 < n * 10 ^ e := Nat.mul_pos hn (Nat.pow_pos (by decide))
  rw [digitCount_eq hpos, digitCount_eq hn, toDigits_mul_pow hn, List.length_append,
    List.length_replicate]

/-- A number below `2^53` has at most sixteen digits. -/
theorem digitCount_bounds {k : Nat} (hpos : 0 < k) (hlt : k < 2 ^ 53) :
    1 ≤ digitCount k ∧ digitCount k ≤ 16 := by
  rw [digitCount_eq hpos]
  exact ⟨Nat.length_toDigits_pos,
    (Nat.length_toDigits_le_iff (by decide) (by decide)).2 (hlt.trans (by decide))⟩

/-- Trailing zeros go into the exponent. -/
theorem Decimal.exists_strip {x : Decimal} {e : Nat} (he : x.exponent = e) :
    ∃ e' : Nat, x.strip.exponent = e' ∧ x.strip.digits * 10 ^ e' = x.digits * 10 ^ e := by
  fun_induction Decimal.strip x generalizing e with
  | case1 x h ih =>
    obtain ⟨e', hexponent, hdigits⟩ := ih (e := e + 1) (by simp [he])
    refine ⟨e', hexponent, hdigits.trans ?_⟩
    have hten : x.digits / 10 * 10 = x.digits := Nat.div_mul_cancel (Nat.dvd_of_mod_eq_zero h.2)
    calc x.digits / 10 * 10 ^ (e + 1) = x.digits / 10 * 10 * 10 ^ e := by ring
      _ = x.digits * 10 ^ e := by rw [hten]
  | case2 x h => exact ⟨e, he, rfl⟩

/-! ### Whole numbers that are written -/

section whole

variable {x : Binary64} {k : Nat}

/-- The form of a whole number below `2^53`: its last place is not above the units. -/
theorem Binary64.exists_mantissa_of_whole (hx : x.magnitude = k) (hpos : 0 < k) (hlt : k < 2 ^ 53) :
    ∃ s : Nat, x.exponent = -s ∧ x.mantissa = k * 2 ^ s := by
  obtain ⟨m, q, hc, hnormal, hvalue⟩ := exists_canonical_whole hpos hlt
  have hm : 0 < m := lt_of_lt_of_le (by decide) hnormal
  obtain ⟨hmantissa, hexponent⟩ := eq_of_magnitude_eq hc hm (hx.trans hvalue)
  have hq : q ≤ 0 := by
    by_contra hgt
    have hone : (2 : ℚ) ≤ 2 ^ q := by
      calc (2 : ℚ) = 2 ^ (1 : Int) := by norm_num
        _ ≤ 2 ^ q := zpow_le_zpow_right₀ (by norm_num) (by omega)
    have hnormal' : (2 ^ 52 : ℚ) ≤ m := by exact_mod_cast hnormal
    have hlt' : (k : ℚ) < 2 ^ 53 := by exact_mod_cast hlt
    have hlarge : (2 ^ 52 : ℚ) * 2 ≤ m * 2 ^ q :=
      mul_le_mul hnormal' hone (by norm_num) (by positivity)
    rw [← hvalue] at hlarge
    linarith
  refine ⟨(-q).toNat, by omega, ?_⟩
  rw [hmantissa]
  have hscaled : (m : ℚ) = k * 2 ^ (-q).toNat := by
    rw [hvalue, ← zpow_natCast, Int.toNat_of_nonneg (by omega), mul_assoc, ← zpow_add₀ (by norm_num)]
    simp
  exact_mod_cast hscaled

/-- The interval of reals that round to a whole number ends half a unit above it, and at most as
    far below it. -/
theorem Binary64.exists_rounding (hx : x.magnitude = k) (hpos : 0 < k) (hlt : k < 2 ^ 53) :
    ∃ u, 0 < u ∧ x.rounding.unit = 4 * u ∧ x.rounding.mid = 4 * (k * u) ∧
      x.rounding.high = 4 * (k * u) + 2 ∧
      4 * (k * u) ≤ x.rounding.low + 2 ∧ x.rounding.low < 4 * (k * u) := by
  obtain ⟨s, hexponent, hmantissa⟩ := exists_mantissa_of_whole hx hpos hlt
  have hup : twoTo (x.exponent - 2).toNat = 1 := by
    rw [Int.toNat_of_nonpos (by omega)]
    rfl
  have hunit : twoTo (2 - x.exponent).toNat = 4 * 2 ^ s := by
    have hsum : (2 - x.exponent).toNat = 2 + s := by omega
    rw [hsum]
    exact Nat.pow_add 2 2 s
  have hmid : 0 < k * 2 ^ s := Nat.mul_pos hpos (Nat.two_pow_pos s)
  refine ⟨2 ^ s, Nat.two_pow_pos s, hunit, ?_, ?_, ?_⟩
  · simp only [rounding, hup, hmantissa, Nat.mul_one]
  · simp only [rounding, hup, hmantissa, Nat.mul_one]
  · simp only [rounding, hup, hmantissa, Nat.mul_one]
    split
    · omega
    · omega

/-- Of all whole numbers only the number itself reads back: the others are farther away than half
    a unit. -/
theorem Rounding.holds_iff (hx : x.magnitude = k) (hpos : 0 < k) (hlt : k < 2 ^ 53)
    (digits e : Nat) : x.rounding.holds digits e ↔ digits * 10 ^ e = k := by
  obtain ⟨u, hu, hunit, -, hhigh, hlow, hbelow⟩ := Binary64.exists_rounding hx hpos hlt
  have hten : tenTo (e : Int).toNat = 10 ^ e := rfl
  have hone : tenTo (-(e : Int)).toNat = 1 := by
    rw [Int.toNat_of_nonpos (by omega)]
    rfl
  have hvalue : digits * 10 ^ e * (4 * u) = 4 * (digits * 10 ^ e * u) := by ring
  have hcancel : digits * 10 ^ e * u = k * u ↔ digits * 10 ^ e = k := Nat.mul_left_inj hu.ne'
  -- the value is counted in quarters of the last place, and it is a multiple of four of them
  simp only [holds, hten, hone, hunit, hhigh, hvalue, Nat.mul_one]
  rw [← hcancel]
  split
  · rw [Bool.and_eq_true, decide_eq_true_eq, decide_eq_true_eq]
    omega
  · rw [Bool.and_eq_true, decide_eq_true_eq, decide_eq_true_eq]
    omega

/-- On a grid of whole numbers the search finds the number itself, if it is on the grid. -/
theorem Rounding.onGrid_whole (hx : x.magnitude = k) (hpos : 0 < k) (hlt : k < 2 ^ 53) (tie : Tie)
    (e : Nat) : x.rounding.onGrid tie e =
      if k / 10 ^ e * 10 ^ e = k then some ⟨k / 10 ^ e, e⟩ else none := by
  obtain ⟨u, hu, hunit, hmid, -⟩ := Binary64.exists_rounding hx hpos hlt
  have hten : tenTo (e : Int).toNat = 10 ^ e := rfl
  have hone : tenTo (-(e : Int)).toNat = 1 := by
    rw [Int.toNat_of_nonpos (by omega)]
    rfl
  have hfloor : 4 * (k * u) / (10 ^ e * (4 * u)) = k / 10 ^ e := by
    have hmul : 4 * (k * u) = k * (4 * u) := by ring
    rw [hmul, Nat.mul_div_mul_right _ _ (Nat.mul_pos (by decide) hu)]
  have hnext : x.rounding.holds (k / 10 ^ e + 1) e = false := by
    rw [← Bool.not_eq_true, holds_iff hx hpos hlt]
    have hmod : k % 10 ^ e < 10 ^ e := Nat.mod_lt k (Nat.pow_pos (by decide))
    have hdiv : k / 10 ^ e * 10 ^ e + k % 10 ^ e = k := Nat.div_add_mod' k (10 ^ e)
    rw [Nat.add_mul]
    omega
  simp only [onGrid, hten, hone, hunit, hmid, Nat.mul_one, hfloor, hnext]
  by_cases hfits : k / 10 ^ e * 10 ^ e = k
  · rw [if_pos hfits, (holds_iff hx hpos hlt _ _).2 hfits]
  · rw [if_neg hfits, Bool.eq_false_iff.2 fun h => hfits ((holds_iff hx hpos hlt _ _).1 h)]

/-- The first digit of a whole number stands where the search begins. -/
theorem Binary64.floorLog10_whole (hx : x.magnitude = k) (hpos : 0 < k) (hlt : k < 2 ^ 53) :
    floorLog10 x.num x.den = (digitCount k - 1 : Nat) := by
  have hratio : (x.num : ℚ) = k * x.den := by
    have hden : (x.den : ℚ) ≠ 0 := by exact_mod_cast x.den_pos.ne'
    rw [← hx, ← num_div_den, div_mul_cancel₀ _ hden]
  have hnum : x.num = k * x.den := by exact_mod_cast hratio
  have hle : x.den ≤ x.num := by
    rw [hnum]
    exact Nat.le_mul_of_pos_left _ hpos
  have hcount := (digitCount_bounds hpos hlt).1
  rw [floorLog10, if_pos hle, hnum, Nat.mul_div_cancel _ x.den_pos]
  omega

/-- A search ends at a place where something is known to be found, or before. -/
theorem exists_findSome?_range {α : Type} {f : Nat → Option α} {m n : Nat} (hlt : n < m)
    (hn : (f n).isSome) :
    ∃ j ≤ n, ∃ found, f j = some found ∧ (List.range m).findSome? f = some found := by
  have hrange : List.range m = List.range (n + 1) ++ (List.range (m - (n + 1))).map (n + 1 + ·) := by
    rw [← List.range_add, Nat.add_sub_cancel' hlt]
  obtain ⟨found, hfound⟩ : ∃ found, (List.range (n + 1)).findSome? f = some found := by
    rw [← Option.isSome_iff_exists, List.findSome?_isSome_iff]
    exact ⟨n, List.mem_range.2 (Nat.lt_succ_self n), hn⟩
  obtain ⟨j, hj, hat⟩ := List.exists_of_findSome?_eq_some hfound
  refine ⟨j, Nat.le_of_lt_succ (List.mem_range.1 hj), found, hat, ?_⟩
  rw [hrange, List.findSome?_append, hfound]
  rfl

/-- The shortest decimal of a whole number below `2^53` is the number. The search meets the grid
    of the units, where the number itself is found, before any grid with places behind the
    point. -/
theorem Binary64.exists_shortest (hx : x.magnitude = k) (hpos : 0 < k) (hlt : k < 2 ^ 53) (tie : Tie) :
    ∃ e : Nat, (x.shortest tie).exponent = e ∧ (x.shortest tie).digits * 10 ^ e = k := by
  have hzero : x.isZero = false := by
    obtain ⟨s, -, hmantissa⟩ := exists_mantissa_of_whole hx hpos hlt
    rw [isZero, beq_eq_false_iff_ne, hmantissa]
    exact (Nat.mul_pos hpos (Nat.two_pow_pos s)).ne'
  obtain ⟨hone, hsixteen⟩ := digitCount_bounds hpos hlt
  let top := digitCount k - 1
  have hgrid : ∀ j ≤ top, x.rounding.onGrid tie ((top : Int) - (j : Nat)) =
      if k / 10 ^ (top - j) * 10 ^ (top - j) = k then
        some ⟨k / 10 ^ (top - j), (top - j : Nat)⟩ else none := by
    intro j hj
    have hsub : (top : Int) - (j : Nat) = (top - j : Nat) := by omega
    rw [hsub]
    exact Rounding.onGrid_whole hx hpos hlt tie (top - j)
  have hunits : (x.rounding.onGrid tie ((top : Int) - (top : Nat))).isSome := by
    rw [hgrid top le_rfl, Nat.sub_self, pow_zero, Nat.div_one, Nat.mul_one, if_pos rfl]
    rfl
  obtain ⟨j, hj, found, hat, hsearch⟩ := exists_findSome?_range
    (f := fun j => x.rounding.onGrid tie ((top : Int) - (j : Nat))) (m := 17) (by omega) hunits
  have hshortest : x.shortest tie = found.strip := by
    simp only [shortest, hzero, floorLog10_whole hx hpos hlt, List.findSome?_map, Bool.false_eq_true,
      if_false]
    exact congrArg (fun found => (Option.getD found ⟨0, 0⟩).strip) hsearch
  rw [hgrid j hj] at hat
  rw [hshortest]
  split at hat
  · next hfits =>
    cases hat
    obtain ⟨e, hexponent, hdigits⟩ := Decimal.exists_strip
      (x := ⟨k / 10 ^ (top - j), (top - j : Nat)⟩) rfl
    exact ⟨e, hexponent, hdigits.trans hfits⟩
  · cases hat

/-- A whole number below `2^53` is written as its digits. -/
theorem Binary64.text_whole (hx : x.magnitude = k) (hpos : 0 < k) (hlt : k < 2 ^ 53) :
    x.text .console = x.sign ++ toString k := by
  obtain ⟨e, hexponent, hdigits⟩ := exists_shortest hx hpos hlt Layout.console.tie
  have hshort : 0 < (x.shortest Layout.console.tie).digits := by
    apply Nat.pos_of_ne_zero
    intro hzero
    rw [hzero, Nat.zero_mul] at hdigits
    omega
  obtain ⟨hone, hsixteen⟩ := digitCount_bounds hpos hlt
  have hmagnitude : (x.shortest Layout.console.tie).magnitude = (digitCount k : Int) - 1 := by
    rw [Decimal.magnitude, if_neg hshort.ne', hexponent, ← hdigits, digitCount_mul_pow hshort]
    omega
  have hpositional : (x.shortest Layout.console.tie).positional = toString k := by
    rw [← String.toList_inj]
    rw [Decimal.positional, if_pos (by omega), hexponent, ← hdigits, String.toList_append,
      Number.toList_zeros, Nat.toString_eq_ofList_toDigits, Nat.toString_eq_ofList_toDigits,
      String.toList_ofList, String.toList_ofList, toDigits_mul_pow hshort]
    rfl
  have hleast : Layout.console.least = -6 := rfl
  have hgreatest : Layout.console.greatest = 20 := rfl
  have hpoint : Layout.console.point = false := rfl
  simp only [text]
  rw [if_pos (by omega), hpositional, hpoint]
  simp

/-! ### Integer parts -/

/-- The integer part of a value: what is left of it towards zero. -/
def wholePart (v : ℚ) : Int := if v < 0 then ⌈v⌉ else ⌊v⌋

theorem wholePart_of_nonneg {v : ℚ} (hv : 0 ≤ v) : wholePart v = ⌊v⌋ := if_neg (not_lt.2 hv)

theorem wholePart_neg {v : ℚ} (hv : 0 ≤ v) : wholePart (-v) = -⌊v⌋ := by
  rcases hv.eq_or_lt with rfl | hpos
  · rw [neg_zero, wholePart_of_nonneg le_rfl, Int.floor_zero, neg_zero]
  · rw [wholePart, if_pos (neg_lt_zero.2 hpos), Int.ceil_neg]

/-- The integer part of a number has the digits of its magnitude before the point, and is
    negative if the number is and these are not zero. -/
theorem Binary64.wholePart_toRat (x : Binary64) :
    wholePart x.toRat =
      if x.negative then -((x.num / x.den : Nat) : Int) else ((x.num / x.den : Nat) : Int) := by
  have hfloor : ⌊x.magnitude⌋ = (x.num / x.den : Nat) := by
    rw [← num_div_den, Rat.floor_natCast_div_natCast, Int.natCast_div]
  unfold toRat
  split
  · rw [wholePart_neg x.magnitude_nonneg, hfloor]
  · rw [wholePart_of_nonneg x.magnitude_nonneg, hfloor]

/-- The integer part of a number below `2^53` is written as its digits, behind a mark if it is
    below zero. -/
theorem Binary64.text_truncate (x : Binary64) (h : |x.toRat| < 2 ^ 53) :
    x.truncate.text .console =
      (if wholePart x.toRat < 0 then "-" else "") ++ toString (wholePart x.toRat).natAbs := by
  have hlt : x.num / x.den < 2 ^ 53 := by
    rw [abs_toRat, ← num_div_den, div_lt_iff₀ (by exact_mod_cast x.den_pos)] at h
    apply (Nat.div_lt_iff_lt_mul x.den_pos).2
    exact_mod_cast h
  have hwhole := x.wholePart_toRat
  by_cases hzero : x.num / x.den = 0
  · -- nothing is left before the point, not even the sign
    have hpart : wholePart x.toRat = 0 := by
      rw [hwhole, hzero]
      simp
    rw [hpart, truncate]
    simp only [hzero, if_pos]
    decide +kernel
  · obtain ⟨w, hw⟩ := exists_magnitude_eq hlt
    have hratio : ((x.num / x.den : Nat) : ℚ) / (1 : Nat) = w.magnitude := by
      rw [hw, Nat.cast_one, div_one]
    have htruncate : x.truncate = { w with negative := x.negative } := by
      simp only [truncate, if_neg hzero, nearest_of_magnitude x.negative one_pos hratio]
      rfl
    have hmagnitude : ({ w with negative := x.negative } : Binary64).magnitude =
        (x.num / x.den : Nat) := hw
    rw [htruncate, text_whole hmagnitude (Nat.pos_of_ne_zero hzero) hlt]
    show (if x.negative then "-" else "") ++ _ = _
    by_cases hneg : x.negative
    · have hbelow : -((x.num / x.den : Nat) : Int) < 0 :=
        neg_lt_zero.2 (Int.natCast_pos.2 (Nat.pos_of_ne_zero hzero))
      rw [if_pos hneg] at hwhole
      rw [if_pos hneg, hwhole, if_pos hbelow, Int.natAbs_neg, Int.natAbs_natCast]
    · have hnot : ¬ ((x.num / x.den : Nat) : Int) < 0 := not_lt.2 (Int.natCast_nonneg _)
      rw [if_neg hneg] at hwhole
      rw [if_neg hneg, hwhole, if_neg hnot, Int.natAbs_natCast]

end whole

end Console
