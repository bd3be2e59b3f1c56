import Console.Proofs.Number.Rounding
import Console.Proofs.Record.RoundTrip

/-! # Time stamps through their packets

    A time stamp with microseconds left over is written as a fraction of milliseconds: its
    microseconds are divided by a thousand, rounded, and when they are read again multiplied
    by a thousand, rounded, and rounded to an integer. The errors cancel
    (`ofMillis?_written`) except in the years from 2109 to 2112, and before 1970 as far
    back, where half a microsecond is one unit in the last place of the product.

    - `div_mul_thousand_low`, `div_mul_thousand_high`: what a division and a multiplication
      leave of a number, on either side of the power of two that the quotient crosses,
    - `Timestamp.Drifts`: the time stamps that come back one microsecond farther from 1970,
    - `Record.timestamp_of_toPacket`: what a record's own packet gives of its time.
-/

namespace Console

namespace Timestamp

open Binary64

/-! ### A thousandth and a thousand times it -/

variable {x y : Binary64} {n a b : Nat} {q : Int}

theorem magnitude_thousand : thousand.magnitude = 1000 := by
  have hvalue : thousand.toRat = 1000 := by exact_mod_cast toRat_thousand
  rw [← abs_toRat, hvalue]
  norm_num

theorem negative_thousand : thousand.negative = false := by decide

/-- The quotient by a thousand is the nearest number to the exact one. -/
theorem div_thousand (x : Binary64) : ∃ n d : Nat, 0 < d ∧
    x.div thousand = nearest x.negative n d ∧ (n : ℚ) / d = x.magnitude / 1000 := by
  have hnum : 0 < thousand.num := by decide
  refine ⟨_, _, Nat.mul_pos hnum x.den_pos, by rw [div, negative_thousand, Bool.bne_false], ?_⟩
  rw [← magnitude_thousand, ← num_div_den, ← num_div_den]
  push_cast
  field_simp

/-- The product with a thousand is the nearest number to the exact one. -/
theorem mul_thousand (x : Binary64) : ∃ n d : Nat, 0 < d ∧
    x.mul thousand = nearest x.negative n d ∧ (n : ℚ) / d = x.magnitude * 1000 := by
  refine ⟨_, _, Nat.mul_pos thousand.den_pos x.den_pos,
    by rw [mul, negative_thousand, Bool.bne_false], ?_⟩
  rw [← magnitude_thousand, ← num_div_den, ← num_div_den]
  push_cast
  field_simp

theorem div_thousand_of_scaled (hb : 0 < b) (hx : x.magnitude / 1000 = a / b * 2 ^ q)
    (hlow : hiddenBit * b ≤ a) (hhigh : a < 2 * hiddenBit * b) (hq : -1074 ≤ q) (hq' : q ≤ 970) :
    ∃ (y : Binary64) (i : Nat), x.div thousand = .finite y ∧ y.negative = x.negative ∧
      y.magnitude = i * 2 ^ q ∧ RoundedTo a b i := by
  obtain ⟨n, d, hd, hdiv, hratio⟩ := div_thousand x
  rw [hdiv]
  exact nearest_of_scaled x.negative hd hb (hratio.trans hx) hlow hhigh hq hq'

theorem mul_thousand_of_scaled (hb : 0 < b) (hx : x.magnitude * 1000 = a / b * 2 ^ q)
    (hlow : hiddenBit * b ≤ a) (hhigh : a < 2 * hiddenBit * b) (hq : -1074 ≤ q) (hq' : q ≤ 970) :
    ∃ (y : Binary64) (i : Nat), x.mul thousand = .finite y ∧ y.negative = x.negative ∧
      y.magnitude = i * 2 ^ q ∧ RoundedTo a b i := by
  obtain ⟨n, d, hd, hmul, hratio⟩ := mul_thousand x
  rw [hmul]
  exact nearest_of_scaled x.negative hd hb (hratio.trans hx) hlow hhigh hq hq'

/-- The mantissa from which on a number and its thousandth are nine powers of two apart,
    and not ten: `125 · 2^46`. -/
def crossing : Nat := 8796093022208000

/-- A division and a multiplication with roundings in units that are `8 * c` apart, if no
    rounding crosses a power of two. -/
theorem div_mul_thousand {c : Nat} {s : Int} (hs : (2 : ℚ) ^ s = 8 * c) (hc : 0 < c)
    (hx : x.magnitude = n * 2 ^ q) (hs' : 0 ≤ s ∧ s ≤ 100) (hq : -900 ≤ q) (hq' : q ≤ 900)
    (hdiv : hiddenBit * 125 ≤ c * n ∧ c * n < 2 * hiddenBit * 125)
    (hmul : ∀ j, RoundedTo (c * n) 125 j →
      hiddenBit * c ≤ 125 * j ∧ 125 * j < 2 * hiddenBit * c) :
    ∃ (y z : Binary64) (j i : Nat), x.div thousand = .finite y ∧ y.mul thousand = .finite z ∧
      z.negative = x.negative ∧ RoundedTo (c * n) 125 j ∧ z.magnitude = i * 2 ^ q ∧
      RoundedTo (125 * j) c i := by
  have hc' : (c : ℚ) ≠ 0 := by exact_mod_cast hc.ne'
  have hpow : (2 : ℚ) ^ (q - s) = 2 ^ q / (8 * c) := by rw [zpow_sub₀ (by norm_num), hs]
  have hquotient : x.magnitude / 1000 = (c * n : Nat) / (125 : Nat) * 2 ^ (q - s) := by
    rw [hx, hpow]
    push_cast
    field_simp
    ring
  obtain ⟨y, j, hy, hyneg, hymag, hj⟩ :=
    div_thousand_of_scaled (by norm_num) hquotient hdiv.1 hdiv.2 (by omega) (by omega)
  have hproduct : y.magnitude * 1000 = (125 * j : Nat) / (c : Nat) * 2 ^ q := by
    rw [hymag, hpow]
    push_cast
    field_simp
    ring
  obtain ⟨hlow, hhigh⟩ := hmul j hj
  obtain ⟨z, i, hz, hzneg, hzmag, hi⟩ :=
    mul_thousand_of_scaled hc hproduct hlow hhigh (by omega) (by omega)
  exact ⟨y, z, j, i, hy, hz, hzneg.trans hyneg, hj, hzmag, hi⟩

/-- Below the crossing a thousandth is fine enough to give the number back. -/
theorem div_mul_thousand_low (hx : x.magnitude = n * 2 ^ q) (hn : hiddenBit ≤ n)
    (hlow : n < crossing) (hq : -900 ≤ q) (hq' : q ≤ 900) :
    ∃ y z : Binary64, x.div thousand = .finite y ∧ y.mul thousand = .finite z ∧
      z.negative = x.negative ∧ z.magnitude = x.magnitude := by
  unfold crossing at hlow
  unfold hiddenBit at hn
  obtain ⟨y, z, j, i, hy, hz, hneg, hj, hmag, hi⟩ :=
    div_mul_thousand (c := 128) (s := 10) (by norm_num) (by norm_num) hx (by decide) hq hq'
      (by unfold hiddenBit; omega) (by
        rintro j ⟨_, _, _⟩
        unfold hiddenBit
        omega)
  obtain ⟨_, _, _⟩ := hj
  obtain ⟨_, _, _⟩ := hi
  -- the quotient is off by at most 62/125 of a unit that is 125/128 of one of the product
  have hin : i = n := by omega
  exact ⟨y, z, hy, hz, hneg, by rw [hmag, hin, hx]⟩

/-- From the crossing on the product may be off by one unit. -/
theorem div_mul_thousand_high (hx : x.magnitude = n * 2 ^ q) (hhigh : crossing ≤ n)
    (hn : n < 2 * hiddenBit) (hq : -900 ≤ q) (hq' : q ≤ 900) :
    ∃ (y z : Binary64) (j i : Nat), x.div thousand = .finite y ∧ y.mul thousand = .finite z ∧
      z.negative = x.negative ∧ RoundedTo (64 * n) 125 j ∧ z.magnitude = i * 2 ^ q ∧
      RoundedTo (125 * j) 64 i := by
  unfold crossing at hhigh
  unfold hiddenBit at hn
  refine div_mul_thousand (s := 9) (by norm_num) (by norm_num) hx (by decide) hq hq'
    (by unfold hiddenBit; omega) ?_
  rintro j ⟨_, _, _⟩
  unfold hiddenBit
  omega

theorem thousand_units (q : Int) : (2 : ℚ) ^ (q - 9) * 1000 = 125 / 64 * 2 ^ q := by
  rw [zpow_sub₀ (by norm_num)]
  norm_num
  ring

/-- What gives a product beyond the crossing is a whole number of the units of its thousandth,
    and the one nearest to it. -/
theorem exists_factor_of_product {ms x : Binary64} (hx : ms.mul thousand = .finite x)
    (hn : crossing < x.mantissa) : ∃ g : Nat, ms.magnitude = g * 2 ^ (x.exponent - 9) ∧
      125 * g ≤ 64 * x.mantissa + 32 ∧ 64 * x.mantissa ≤ 125 * g + 32 := by
  obtain ⟨n, d, hd, hmul, hratio⟩ := mul_thousand ms
  have herror := (nearest_error hd (hmul.symm.trans hx)).2
  have hxmag : x.magnitude = x.mantissa * 2 ^ x.exponent := rfl
  rw [hratio, hxmag] at herror
  obtain ⟨hbelow, habove⟩ := abs_le.1 herror
  have hpos : (0 : ℚ) < 2 ^ x.exponent := by positivity
  have hunits := thousand_units x.exponent
  have hlarge : 2 ^ 52 * (2 : ℚ) ^ (x.exponent - 9) ≤ ms.magnitude := by
    have hproduct : ((crossing : ℚ) + 1) * 2 ^ x.exponent ≤ x.mantissa * 2 ^ x.exponent :=
      mul_le_mul_of_nonneg_right (by exact_mod_cast hn) hpos.le
    norm_num [crossing] at hproduct
    linarith
  obtain ⟨g, hg⟩ := exists_multiple_of_le hlarge
  rw [hg, mul_assoc, hunits] at hbelow habove
  refine ⟨g, hg, ?_, ?_⟩
  · have h : (125 * g : ℚ) ≤ 64 * x.mantissa + 32 := le_of_mul_le_mul_right (by linarith) hpos
    exact_mod_cast h
  · have h : (64 * x.mantissa : ℚ) ≤ 125 * g + 32 := le_of_mul_le_mul_right (by linarith) hpos
    exact_mod_cast h

/-- A product beyond the crossing is given back by its thousandth, which is the number that
    was multiplied. -/
theorem eq_mantissa_of_product {ms x : Binary64} (hx : ms.mul thousand = .finite x)
    (hn : crossing < x.mantissa) (hq : -1000 ≤ x.exponent) (hq' : x.exponent ≤ 900) {j i : Nat}
    (hj : RoundedTo (64 * x.mantissa) 125 j) (hi : RoundedTo (125 * j) 64 i) : i = x.mantissa := by
  obtain ⟨g, hg, habove, hbelow⟩ := exists_factor_of_product hx hn
  have hgj : g = j := by
    obtain ⟨_, _, _⟩ := hj
    omega
  have hscaled : ms.magnitude * 1000 = (125 * g : Nat) / (64 : Nat) * 2 ^ x.exponent := by
    rw [hg, mul_assoc, thousand_units]
    push_cast
    ring
  have hmantissa : x.mantissa < 2 * hiddenBit := x.canonical.1
  unfold crossing at hn
  unfold hiddenBit at hmantissa
  obtain ⟨y, k, hy, -, hmag, hk⟩ := mul_thousand_of_scaled (by norm_num) hscaled
    (by unfold hiddenBit; omega) (by unfold hiddenBit; omega) (by omega) (by omega)
  have hyx : y = x := by
    rw [hx] at hy
    cases hy
    rfl
  have hkx : x.mantissa = k := by
    have hpos : (2 : ℚ) ^ x.exponent ≠ 0 := by positivity
    rw [hyx, magnitude] at hmag
    exact_mod_cast mul_right_cancel₀ hpos hmag
  -- the same ratio is not rounded to two integers
  rw [hgj] at hk
  obtain ⟨_, _, _⟩ := hk
  obtain ⟨_, _, _⟩ := hi
  omega

/-! ### The unit of a number of microseconds -/

variable {N : Nat}

theorem unit_lt {k : Int} (hN : (N : ℚ) = n * 2 ^ q) (hn : hiddenBit ≤ n)
    (h : (N : ℚ) < 2 ^ (52 + k)) : q < k := by
  rw [← zpow_lt_zpow_iff_right₀ (by norm_num : (1 : ℚ) < 2)]
  have hn' : (2 : ℚ) ^ (52 : Int) ≤ n := by exact_mod_cast hn
  have hpow : (0 : ℚ) < 2 ^ (52 : Int) := by positivity
  refine lt_of_mul_lt_mul_left ?_ hpow.le
  rw [← zpow_add₀ (by norm_num : (2 : ℚ) ≠ 0) 52 k]
  calc (2 : ℚ) ^ (52 : Int) * 2 ^ q ≤ n * 2 ^ q := mul_le_mul_of_nonneg_right hn' (by positivity)
    _ = N := hN.symm
    _ < 2 ^ (52 + k) := h

theorem lt_unit {k : Int} (hN : (N : ℚ) = n * 2 ^ q) (hn : n < 2 * hiddenBit)
    (h : (2 : ℚ) ^ (53 + k) ≤ N) : k < q := by
  rw [← zpow_lt_zpow_iff_right₀ (by norm_num : (1 : ℚ) < 2)]
  have hn' : (n : ℚ) < 2 ^ (53 : Int) := by exact_mod_cast hn
  have hpow : (0 : ℚ) < 2 ^ (53 : Int) := by positivity
  refine lt_of_mul_lt_mul_left ?_ hpow.le
  rw [← zpow_add₀ (by norm_num : (2 : ℚ) ≠ 0) 53 k]
  calc (2 : ℚ) ^ (53 + k) ≤ N := h
    _ = n * 2 ^ q := hN
    _ < 2 ^ (53 : Int) * 2 ^ q := mul_lt_mul_of_pos_right hn' (by positivity)

/-- The unit of a positive number of microseconds is `2^-52` at least and `2^10` at most. -/
theorem unit_bounds (hN : (N : ℚ) = n * 2 ^ q) (hn : hiddenBit ≤ n) (hn' : n < 2 * hiddenBit)
    (hpos : 0 < N) (hlt : N < 2 ^ 63) : -53 < q ∧ q < 11 := by
  constructor
  · refine lt_unit hN hn' ?_
    show (2 : ℚ) ^ (0 : Int) ≤ N
    rw [zpow_zero]
    exact_mod_cast hpos
  · refine unit_lt hN hn ?_
    show (N : ℚ) < 2 ^ (63 : Int)
    exact_mod_cast hlt

/-- In the range of drifts the unit is a half. -/
theorem unit_of_range (hN : (N : ℚ) = n * 2 ^ q) (hn : hiddenBit ≤ n) (hn' : n < 2 * hiddenBit)
    (hlow : 1000 * 2 ^ 42 ≤ N) (hhigh : N < 2 ^ 52) : q = -1 := by
  have hlt : q < 0 := by
    refine unit_lt hN hn ?_
    show (N : ℚ) < 2 ^ (52 : Int)
    exact_mod_cast hhigh
  have hgt : -2 < q := by
    refine lt_unit hN hn' ?_
    show (2 : ℚ) ^ (51 : Int) ≤ N
    have : 2 ^ 51 ≤ N := by omega
    exact_mod_cast this
  omega

theorem eq_double_of_half (hN : (N : ℚ) = n * 2 ^ (-1 : Int)) : n = 2 * N := by
  rw [zpow_neg_one] at hN
  have : (n : ℚ) = 2 * N := by linarith
  exact_mod_cast this

/-- An error of one unit is lost if the unit is a quarter or less. -/
theorem natAbs_roundAway_of_fine {z : Binary64} {i : Nat} (hN : (N : ℚ) = n * 2 ^ q)
    (hz : z.magnitude = i * 2 ^ q) (hq : q ≤ -2) (hi : i ≤ n + 1 ∧ n ≤ i + 1) :
    z.roundAway.natAbs = N := by
  have hunit : (2 : ℚ) ^ q ≤ 1 / 4 :=
    calc (2 : ℚ) ^ q ≤ 2 ^ (-2 : Int) := zpow_le_zpow_right₀ (by norm_num) hq
      _ = 1 / 4 := by norm_num
  have hpos : (0 : ℚ) < 2 ^ q := by positivity
  have habove : (i : ℚ) * 2 ^ q ≤ (n + 1) * 2 ^ q :=
    mul_le_mul_of_nonneg_right (by exact_mod_cast hi.1) hpos.le
  have hbelow : (n : ℚ) * 2 ^ q ≤ (i + 1) * 2 ^ q :=
    mul_le_mul_of_nonneg_right (by exact_mod_cast hi.2) hpos.le
  rw [natAbs_roundAway_eq_iff, hz, hN]
  constructor <;> linarith

/-- Halves are rounded up. -/
theorem natAbs_roundAway_of_half {z : Binary64} {i : Nat} (hz : z.magnitude = i * 2 ^ (-1 : Int)) :
    z.roundAway.natAbs = (i + 1) / 2 := by
  have hle : (((i + 1) / 2 : Nat) : ℚ) * 2 ≤ i + 1 := by exact_mod_cast Nat.div_mul_le_self _ 2
  have hlt : (i : ℚ) < ((i + 1) / 2 : Nat) * 2 + 1 := by
    have : i < (i + 1) / 2 * 2 + 1 := by omega
    exact_mod_cast this
  rw [natAbs_roundAway_eq_iff, hz, zpow_neg_one]
  constructor <;> linarith

/-! ### What comes back -/

/-- Says that a time stamp comes back from its packet one microsecond farther from 1970. Its
    microseconds lie between `1000 · 2^42` and `2^52`, so that products are read to the half,
    and its thousandth is rounded up so far that the product ends above the half. -/
def Drifts (t : Timestamp) : Prop :=
  (1000 * 2 ^ 42 ≤ t.micros.natAbs ∧ t.micros.natAbs < 2 ^ 52) ∧
    63 ≤ 3 * t.micros.natAbs % 125 ∧ 3 * t.micros.natAbs % 125 ≤ 92

instance (t : Timestamp) : Decidable t.Drifts := by
  unfold Drifts
  infer_instance

/-- In halves the product ends above the half exactly for the remainders of a drift. -/
theorem half_of_product {i j : Nat} (hj : RoundedTo (64 * (2 * N)) 125 j)
    (hi : RoundedTo (125 * j) 64 i) :
    (i + 1) / 2 = if 63 ≤ 3 * N % 125 ∧ 3 * N % 125 ≤ 92 then N + 1 else N := by
  obtain ⟨_, _, _⟩ := hj
  obtain ⟨_, _, _⟩ := hi
  -- `128 * N` is `125 * N` and the multiple of three, whose remainder says where to round
  by_cases hup : 63 ≤ 3 * N % 125
  · have hquotient : j = N + 3 * N / 125 + 1 := by omega
    split <;> omega
  · have hquotient : j = N + 3 * N / 125 := by omega
    split <;> omega

theorem ofMillis?_eq_some_iff {ms : Binary64} {t : Timestamp} : ofMillis? ms = some t ↔
    ∃ x, ms.mul thousand = .finite x ∧ x.roundAway = t.micros := by
  unfold ofMillis?
  cases ms.mul thousand with
  | finite x =>
    simp only [ofMicros?, Extended.finite.injEq, exists_eq_left']
    constructor
    · intro h
      split at h
      · cases h
        rfl
      · cases h
    · intro h
      rw [dif_pos (h ▸ t.inRange)]
      cases t
      cases h
      rfl
  | infinite | nan => simp

variable {ms : Binary64} {t : Timestamp}

/-- If the unit is whole, microseconds beyond the crossing are a product, which is given back
    exactly. At the crossing they are whole milliseconds. -/
theorem eq_of_whole_unit {x0 : Binary64} (hx0 : ms.mul thousand = .finite x0)
    (hpart : x0.roundAway.natAbs % 1000 ≠ 0) (hform : (x0.roundAway.natAbs : ℚ) = n * 2 ^ q)
    (hc : Canonical n q) (hn : crossing ≤ n) (hq : 0 ≤ q) (hq' : q ≤ 900) {j i : Nat}
    (hj : RoundedTo (64 * n) 125 j) (hi : RoundedTo (125 * j) 64 i) : i = n := by
  have hwhole : x0.roundAway.natAbs = n * 2 ^ q.toNat := by
    have : (x0.roundAway.natAbs : ℚ) = n * 2 ^ q.toNat := by
      rw [hform, ← zpow_natCast, Int.toNat_of_nonneg hq]
    exact_mod_cast this
  have hbeyond : crossing < n := by
    refine lt_of_le_of_ne hn ?_
    rintro rfl
    have hmultiple : crossing * 2 ^ q.toNat = 1000 * (8796093022208 * 2 ^ q.toNat) := by
      rw [← Nat.mul_assoc]
      rfl
    rw [hwhole, hmultiple, Nat.mul_mod_right] at hpart
    exact hpart rfl
  have hlarge : 2 ^ 52 < x0.roundAway.natAbs := by
    have hle : n * 1 ≤ n * 2 ^ q.toNat := Nat.mul_le_mul_left n (Nat.two_pow_pos _)
    unfold crossing at hbeyond
    omega
  obtain ⟨hmag, -⟩ := magnitude_eq_natAbs_roundAway hlarge
  obtain ⟨rfl, rfl⟩ := eq_of_magnitude_eq hc (by unfold crossing at hn; omega) (hmag.trans hform)
  exact eq_mantissa_of_product hx0 hbeyond (by omega) hq' hj hi

/-- A time stamp drifts only if its microseconds are counted in halves. -/
theorem not_drifts_of_unit (hN : (t.micros.natAbs : ℚ) = n * 2 ^ q) (hn : hiddenBit ≤ n)
    (hn' : n < 2 * hiddenBit) (hq : q ≠ -1) : ¬ t.Drifts := by
  intro hdrifts
  exact hq (unit_of_range hN hn hn' hdrifts.1.1 hdrifts.1.2)

/-- A time stamp drifts only if its microseconds lie beyond the crossing. -/
theorem not_drifts_of_low (hN : (t.micros.natAbs : ℚ) = n * 2 ^ q) (hn : hiddenBit ≤ n)
    (hlow : n < crossing) : ¬ t.Drifts := by
  intro hdrifts
  have hle : 1000 * 2 ^ 42 ≤ t.micros.natAbs := hdrifts.1.1
  unfold crossing at hlow
  rw [unit_of_range hN hn (by unfold hiddenBit; omega) hle hdrifts.1.2] at hN
  have hdouble := eq_double_of_half hN
  omega

/-- A quotient of microseconds by a thousand is read as the same microseconds, or as one
    more if the time stamp drifts. -/
theorem natAbs_roundAway_product {x0 : Binary64} (hx0 : ms.mul thousand = .finite x0)
    (ht : x0.roundAway = t.micros) (hpart : t.micros % 1000 ≠ 0) {f : Binary64}
    (hf : f.magnitude = t.micros.natAbs) : ∃ y z : Binary64, f.div thousand = .finite y ∧
      y.mul thousand = .finite z ∧ z.negative = f.negative ∧
      z.roundAway.natAbs = if t.Drifts then t.micros.natAbs + 1 else t.micros.natAbs := by
  have hpos : 0 < t.micros.natAbs := by omega
  obtain ⟨n, q, hc, hn, hform⟩ := exists_canonical_natAbs_roundAway (x := x0) (by omega)
  rw [ht] at hform
  have hn' : n < 2 * hiddenBit := hc.1
  have hrange := t.inRange
  unfold earliestMicros latestMicros at hrange
  obtain ⟨hq, hq'⟩ := unit_bounds hform hn hn' hpos (by omega)
  by_cases hlow : n < crossing
  · obtain ⟨y, z, hy, hz, hneg, hmag⟩ :=
      div_mul_thousand_low (hf.trans hform) hn hlow (by omega) (by omega)
    refine ⟨y, z, hy, hz, hneg, ?_⟩
    rw [if_neg (not_drifts_of_low hform hn hlow)]
    exact natAbs_roundAway_of_magnitude (hmag.trans hf)
  · rw [Nat.not_lt] at hlow
    obtain ⟨y, z, j, i, hy, hz, hneg, hj, hmag, hi⟩ :=
      div_mul_thousand_high (hf.trans hform) hlow hn' (by omega) (by omega)
    refine ⟨y, z, hy, hz, hneg, ?_⟩
    rcases lt_trichotomy q (-1) with hfine | hhalf | hwhole
    · rw [if_neg (not_drifts_of_unit hform hn hn' hfine.ne)]
      refine natAbs_roundAway_of_fine hform hmag (by omega) ?_
      obtain ⟨_, _, _⟩ := hj
      obtain ⟨_, _, _⟩ := hi
      omega
    · rw [hhalf] at hform hmag
      have hdouble := eq_double_of_half hform
      have hdrifts : t.Drifts ↔ 63 ≤ 3 * t.micros.natAbs % 125 ∧ 3 * t.micros.natAbs % 125 ≤ 92 := by
        unfold crossing at hlow
        unfold hiddenBit at hn'
        exact and_iff_right ⟨by omega, by omega⟩
      rw [hdouble] at hj
      rw [natAbs_roundAway_of_half hmag, half_of_product hj hi]
      simp only [hdrifts]
    · rw [if_neg (not_drifts_of_unit hform hn hn' hwhole.ne')]
      rw [← ht] at hform ⊢
      have hin : i = n := eq_of_whole_unit hx0 (by omega) hform hc hlow (by omega) (by omega) hj hi
      exact natAbs_roundAway_of_magnitude (by rw [hmag, hin, hform])

/-- Whole milliseconds come back as they are. -/
theorem ofMillis?_written_whole (h : ofMillis? ms = some t) (hwhole : t.micros % 1000 = 0) :
    ∃ written, t.toJson.real? = some written ∧ ofMillis? written = some t := by
  have hmicros : t.micros = t.micros / 1000 * 1000 := by omega
  have hrange := t.inRange
  unfold earliestMicros latestMicros at hrange
  obtain ⟨x0, -, ht⟩ := ofMillis?_eq_some_iff.1 h
  obtain ⟨w, hw⟩ := x0.exists_magnitude_natAbs_roundAway
  rw [ht] at hw
  have hproduct : (ofInt (t.micros / 1000)).toRat * thousand.toRat = t.micros := by
    rw [toRat_thousand, toRat_ofInt (by omega)]
    exact_mod_cast hmicros.symm
  obtain ⟨z, hz, hvalue⟩ := exists_mul_of_magnitude hproduct hw
  exact ⟨_, real?_toJson_whole hmicros,
    ofMillis?_eq_some_iff.2 ⟨z, hz, roundAway_of_whole hvalue⟩⟩

/-- The microseconds that come back from the packet of a time stamp. -/
def reloadedMicros (t : Timestamp) : Int :=
  if t.Drifts then (if t.micros < 0 then t.micros - 1 else t.micros + 1) else t.micros

theorem inRange_reloadedMicros (t : Timestamp) :
    earliestMicros ≤ t.reloadedMicros ∧ t.reloadedMicros ≤ latestMicros := by
  have hrange := t.inRange
  by_cases hdrifts : t.Drifts
  · -- time stamps that drift are far from both ends
    have hlt : t.micros.natAbs < 2 ^ 52 := hdrifts.1.2
    rw [reloadedMicros, if_pos hdrifts]
    unfold earliestMicros latestMicros
    split <;> omega
  · rw [reloadedMicros, if_neg hdrifts]
    exact hrange

/-- A time stamp that was read is read again of what it writes, the drift apart. -/
theorem ofMillis?_written (h : ofMillis? ms = some t) : ∃ written u,
    t.toJson.real? = some written ∧ ofMillis? written = some u ∧ u.micros = t.reloadedMicros := by
  by_cases hwhole : t.micros % 1000 = 0
  · obtain ⟨written, hwritten, hread⟩ := ofMillis?_written_whole h hwhole
    have hnot : ¬ t.Drifts := by
      unfold Drifts
      omega
    exact ⟨written, t, hwritten, hread, (if_neg hnot).symm⟩
  · obtain ⟨x0, hx0, ht⟩ := ofMillis?_eq_some_iff.1 h
    obtain ⟨w, hw⟩ := x0.exists_magnitude_natAbs_roundAway
    rw [ht] at hw
    have hf := ofInt_of_magnitude hw
    obtain ⟨y, z, hy, hz, hneg, hround⟩ :=
      natAbs_roundAway_product hx0 ht hwhole (f := ofInt t.micros) (by rw [hf]; exact hw)
    have hneg' : z.negative = decide (t.micros < 0) := by rw [hneg, hf]
    have hmicros : z.roundAway = t.reloadedMicros := by
      rw [roundAway_eq_natAbs, hround, hneg', reloadedMicros]
      by_cases hdrifts : t.Drifts
      · simp only [decide_eq_true_eq, if_pos hdrifts]
        split <;> omega
      · simp only [decide_eq_true_eq, if_neg hdrifts]
        split <;> omega
    refine ⟨y, ⟨t.reloadedMicros, t.inRange_reloadedMicros⟩, ?_,
      ofMillis?_eq_some_iff.2 ⟨z, hz, hmicros⟩, rfl⟩
    rw [toJson, if_neg hwhole, hy]
    rfl

theorem reloadedMicros_eq_iff : t.reloadedMicros = t.micros ↔ ¬ t.Drifts := by
  unfold reloadedMicros
  by_cases hdrifts : t.Drifts
  · rw [if_pos hdrifts]
    refine iff_of_false ?_ (not_not.2 hdrifts)
    split <;> omega
  · rw [if_neg hdrifts]
    exact iff_of_true rfl hdrifts

/-- The epoch is read of zero. -/
theorem exists_ofMillis?_epoch : ∃ ms, ofMillis? ms = some epoch := by
  have hzero : (ofInt 0).toRat = (0 : Int) := toRat_ofInt (by decide)
  obtain ⟨⟨micros, hrange⟩, hread, hmicros⟩ := ofMillis?_whole hzero (by decide)
  cases hmicros
  exact ⟨_, hread⟩

end Timestamp

/-- The time of a packet was read of some number. -/
theorem Packet.exists_ofMillis?_of_timestamp {packet : Packet} {t : Timestamp}
    (h : packet.timestamp = .ok t) : ∃ ms, Timestamp.ofMillis? ms = some t := by
  unfold Packet.timestamp at h
  split at h
  · cases h
    exact Timestamp.exists_ofMillis?_epoch
  · next ms _ =>
    split at h
    · next u hread =>
      cases h
      exact ⟨ms, hread⟩
    · cases h

namespace Record

/-- Every record that was read is read again of its own packet. Its time comes back unless it
    drifts, and then it comes back one microsecond farther from 1970. -/
theorem timestamp_of_toPacket {value : Json} {record : Record} (hread : ofPacket value = .ok record) :
    ∃ again, ofPacket record.toPacket = .ok again ∧
      (again.timestamp = record.timestamp ↔ ¬ record.timestamp.Drifts) ∧
      again.timestamp.micros = record.timestamp.reloadedMicros := by
  obtain ⟨packet, hpacket, hrecord⟩ := ofPacket_eq_ok_iff.1 hread
  have hnonnull := nonnull_of_toRecord hpacket hrecord
  obtain ⟨_, -, _, -, _, -, timestamp, htimestamp, rfl⟩ := Packet.toRecord_eq_ok_iff.1 hrecord
  obtain ⟨ms, hms⟩ := Packet.exists_ofMillis?_of_timestamp htimestamp
  obtain ⟨written, u, hwritten, hu, hmicros⟩ := Timestamp.ofMillis?_written hms
  refine ⟨_, ofPacket_toPacket_of_time hnonnull hwritten hu, ?_, hmicros⟩
  rw [← Timestamp.reloadedMicros_eq_iff]
  show u = timestamp ↔ timestamp.reloadedMicros = timestamp.micros
  rw [← hmicros]
  constructor
  · rintro rfl
    rfl
  · intro h
    cases u
    cases timestamp
    cases h
    rfl

/-- A packet of the year 2109: 4400000000000.021 milliseconds, to the nearest number. -/
def driftingJson : Json :=
  .object [("level", .string "log"), ("arguments", .array []),
    ("timeStamp", .real ⟨false, 4505600000000022, -10, by decide⟩)]

/-- Its record. -/
def drifting : Record where
  kind := .bare .log
  timestamp := ⟨4400000000000022, by decide⟩

/-- The time of the packet is stored as 22 microseconds after a whole millisecond, and comes
    back as 23. -/
theorem drifting_comes_back : ofPacket driftingJson = .ok drifting ∧
    ∃ again, ofPacket drifting.toPacket = .ok again ∧ again.timestamp ≠ drifting.timestamp ∧
      again.timestamp.micros = 4400000000000023 := by
  have hread : ofPacket driftingJson = .ok drifting := by rfl
  have hdrifts : drifting.timestamp.Drifts := by decide
  obtain ⟨again, hagain, hiff, hmicros⟩ := timestamp_of_toPacket hread
  refine ⟨hread, again, hagain, ?_, ?_⟩
  · intro h
    exact hiff.1 h hdrifts
  · rw [hmicros, Timestamp.reloadedMicros, if_pos hdrifts]
    rfl

end Record

end Console
