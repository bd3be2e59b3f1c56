import Mathlib.Algebra.Order.Field.Power
import Mathlib.Data.Nat.Log
import Mathlib.Data.Rat.Cast.Order
import Mathlib.Tactic.FieldSimp
import Mathlib.Tactic.Linarith
import Mathlib.Tactic.NormNum
import Mathlib.Tactic.Positivity
import Mathlib.Tactic.Ring
import Console.Number.Binary64

/-! # Exact values of numbers

    A finite binary64 number stands for the rational `± m · 2^q`. Rounding leaves a
    ratio alone that the format has a form for, so arithmetic on whole numbers below
    `2^53` is exact:

    - `nearest_of_ratio`, `nearest_of_magnitude`: a ratio of canonical form is its own
      nearest number,
    - `toRat_ofInt`, `exists_mul_of_whole`: integers and their products,
    - `natAbs_roundAway_eq_iff`: the nearest integer of a number.
-/

namespace Console

namespace Binary64

/-! ### Powers of two -/

theorem twoTo_pos (n : Nat) : 0 < twoTo n := Nat.two_pow_pos n

/-- A power of two as the ratio of two natural powers, one of which is one. -/
theorem two_zpow (q : Int) : (2 : ℚ) ^ q = twoTo q.toNat / twoTo (-q).toNat := by
  have hq : q = (q.toNat : Int) - ((-q).toNat : Int) := by omega
  conv_lhs => rw [hq]
  rw [zpow_sub₀ (by norm_num), zpow_natCast, zpow_natCast]
  simp [twoTo]

/-! ### Values -/

/-- The exact magnitude of a number. -/
def magnitude (x : Binary64) : ℚ := x.mantissa * 2 ^ x.exponent

/-- The exact value of a number; both zeros are zero. -/
def toRat (x : Binary64) : ℚ := if x.negative then -x.magnitude else x.magnitude

theorem den_pos (x : Binary64) : 0 < x.den := twoTo_pos _

/-- Numerator and denominator are those of the magnitude. -/
theorem num_div_den (x : Binary64) : (x.num : ℚ) / x.den = x.magnitude := by
  unfold magnitude num den
  rw [two_zpow, Nat.cast_mul, mul_div_assoc]

theorem magnitude_nonneg (x : Binary64) : 0 ≤ x.magnitude := by
  unfold magnitude
  positivity

theorem abs_toRat (x : Binary64) : |x.toRat| = x.magnitude := by
  unfold toRat
  split
  · rw [abs_neg, abs_of_nonneg x.magnitude_nonneg]
  · exact abs_of_nonneg x.magnitude_nonneg

/-! ### Rounding what needs no rounding -/

/-- Division without remainder is not rounded. -/
theorem roundDiv_mul {d : Nat} (hd : 0 < d) (m : Nat) : roundDiv (m * d) d = m := by
  unfold roundDiv
  have hdiv : m * d / d = m := Nat.mul_div_cancel m hd
  have hmod : m * d % d = 0 := Nat.mul_mod_left m d
  have hnot : ¬ (d < 2 * 0 ∨ (2 * 0 = d ∧ m % 2 = 1)) := by omega
  simp only [hdiv, hmod, if_neg hnot]

/-- What `floorLog2` tests: whether a power of two is at most a ratio. -/
theorem two_zpow_le_ratio_iff {n d : Nat} (hd : 0 < d) (e : Int) :
    (2 : ℚ) ^ e ≤ n / d ↔ d * twoTo e.toNat ≤ n * twoTo (-e).toNat := by
  have hd' : (0 : ℚ) < d := by exact_mod_cast hd
  have ht : (0 : ℚ) < twoTo (-e).toNat := by exact_mod_cast twoTo_pos _
  rw [two_zpow, div_le_div_iff₀ ht hd', mul_comm (twoTo e.toNat : ℚ) d]
  exact_mod_cast Iff.rfl

/-- A ratio lies between two powers of two whose exponents are the difference of the
    logarithms, give or take one. -/
theorem ratio_log_bounds {n d : Nat} (hn : 0 < n) (hd : 0 < d) :
    (2 : ℚ) ^ ((Nat.log2 n : Int) - Nat.log2 d - 1) ≤ n / d ∧
      (n : ℚ) / d < 2 ^ ((Nat.log2 n : Int) - Nat.log2 d + 1) := by
  have hn' : (0 : ℚ) < n := by exact_mod_cast hn
  have hd' : (0 : ℚ) < d := by exact_mod_cast hd
  have hnl : ((2 : ℚ) ^ (Nat.log2 n : Int)) ≤ n := by
    rw [zpow_natCast]; exact_mod_cast Nat.log2_self_le hn.ne'
  have hnu : (n : ℚ) < 2 ^ ((Nat.log2 n : Int) + 1) := by
    have h := Nat.lt_log2_self (n := n)
    exact_mod_cast h
  have hdl : ((2 : ℚ) ^ (Nat.log2 d : Int)) ≤ d := by
    rw [zpow_natCast]; exact_mod_cast Nat.log2_self_le hd.ne'
  have hdu : (d : ℚ) < 2 ^ ((Nat.log2 d : Int) + 1) := by
    have h := Nat.lt_log2_self (n := d)
    exact_mod_cast h
  constructor
  · rw [show (Nat.log2 n : Int) - Nat.log2 d - 1 = Nat.log2 n - (Nat.log2 d + 1) by ring,
      zpow_sub₀ (by norm_num)]
    exact div_le_div₀ hn'.le hnl hd' hdu.le
  · rw [show (Nat.log2 n : Int) - Nat.log2 d + 1 = (Nat.log2 n + 1) - Nat.log2 d by ring,
      zpow_sub₀ (by norm_num)]
    exact div_lt_div₀ hnu hdl (by positivity) (by positivity)

/-- `floorLog2` is the exponent of the greatest power of two that a ratio reaches. -/
theorem floorLog2_spec {n d : Nat} (hn : 0 < n) (hd : 0 < d) :
    (2 : ℚ) ^ floorLog2 n d ≤ n / d ∧ (n : ℚ) / d < 2 ^ (floorLog2 n d + 1) := by
  obtain ⟨hlow, hhigh⟩ := ratio_log_bounds hn hd
  unfold floorLog2
  simp only [← two_zpow_le_ratio_iff hd]
  split
  · next h => exact ⟨h, hhigh⟩
  · next h => exact ⟨hlow, by rw [sub_add_cancel]; exact lt_of_not_ge h⟩

/-- No other exponent has that property. -/
theorem floorLog2_eq {n d : Nat} (hn : 0 < n) (hd : 0 < d) {e : Int}
    (hlow : (2 : ℚ) ^ e ≤ n / d) (hhigh : (n : ℚ) / d < 2 ^ (e + 1)) : floorLog2 n d = e := by
  obtain ⟨hl, hh⟩ := floorLog2_spec hn hd
  have h1 : e < floorLog2 n d + 1 :=
    (zpow_lt_zpow_iff_right₀ (by norm_num : (1 : ℚ) < 2)).1 (lt_of_le_of_lt hlow hh)
  have h2 : floorLog2 n d < e + 1 :=
    (zpow_lt_zpow_iff_right₀ (by norm_num : (1 : ℚ) < 2)).1 (lt_of_le_of_lt hl hhigh)
  omega

section

variable {n d a b : Nat} {q : Int}

theorem pos_of_scaled (hd : 0 < d) (ha : 0 < a) (hb : 0 < b)
    (hratio : (n : ℚ) / d = a / b * 2 ^ q) : 0 < n := by
  have ha' : (0 : ℚ) < a := by exact_mod_cast ha
  have hb' : (0 : ℚ) < b := by exact_mod_cast hb
  have hd' : (0 : ℚ) < d := by exact_mod_cast hd
  have hpos : (0 : ℚ) < n / d := by
    rw [hratio]
    positivity
  exact_mod_cast (div_pos_iff_of_pos_right hd').1 hpos

/-- The exponent that `nearest` chooses for a ratio leaves a mantissa of 53 bits before its
    point, or fewer if it is the least exponent. -/
theorem exponent_of_scaled (hd : 0 < d) (ha : 0 < a) (hb : 0 < b)
    (hratio : (n : ℚ) / d = a / b * 2 ^ q) (hhigh : a < 2 * hiddenBit * b) (hq : -1074 ≤ q)
    (hform : hiddenBit * b ≤ a ∨ q = -1074) : max (floorLog2 n d - 52) (-1074) = q := by
  have hn : 0 < n := pos_of_scaled hd ha hb hratio
  have hb' : (0 : ℚ) < b := by exact_mod_cast hb
  have hpow : (0 : ℚ) < 2 ^ q := by positivity
  have hhigh' : (n : ℚ) / d < 2 ^ (q + 52 + 1) := by
    have hmantissa : (a : ℚ) / b < 2 ^ (53 : Int) := by
      rw [div_lt_iff₀ hb']
      have : (a : ℚ) < (2 * hiddenBit * b : Nat) := by exact_mod_cast hhigh
      norm_num [hiddenBit] at this ⊢
      exact this
    rw [hratio, show q + 52 + 1 = 53 + q by ring, zpow_add₀ (by norm_num)]
    exact mul_lt_mul_of_pos_right hmantissa hpow
  by_cases hnormal : hiddenBit * b ≤ a
  · -- the leading bit of the mantissa fixes the logarithm
    have hmantissa : (2 : ℚ) ^ (52 : Int) ≤ a / b := by
      rw [le_div_iff₀ hb']
      have : ((hiddenBit * b : Nat) : ℚ) ≤ a := by exact_mod_cast hnormal
      norm_num [hiddenBit] at this ⊢
      exact this
    have hlow' : (2 : ℚ) ^ (q + 52) ≤ n / d := by
      rw [hratio, add_comm q 52, zpow_add₀ (by norm_num)]
      exact mul_le_mul_of_nonneg_right hmantissa hpow.le
    rw [floorLog2_eq hn hd hlow' hhigh']
    omega
  · -- a subnormal magnitude has the least exponent, whatever its logarithm
    have hq' : q = -1074 := hform.resolve_left hnormal
    have h := (floorLog2_spec hn hd).1
    have hlt' : floorLog2 n d < q + 52 + 1 :=
      (zpow_lt_zpow_iff_right₀ (by norm_num : (1 : ℚ) < 2)).1 (lt_of_le_of_lt h hhigh')
    omega

/-- The ratio that `nearest` rounds to a mantissa is what a power of two leaves. -/
theorem scaled_ratio (hd : 0 < d) (hb : 0 < b) (hratio : (n : ℚ) / d = a / b * 2 ^ q) :
    n * twoTo (-q).toNat * b = a * (d * twoTo q.toNat) := by
  have hd' : (d : ℚ) ≠ 0 := by exact_mod_cast hd.ne'
  have hb' : (b : ℚ) ≠ 0 := by exact_mod_cast hb.ne'
  have ht : (twoTo (-q).toNat : ℚ) ≠ 0 := by exact_mod_cast (twoTo_pos _).ne'
  rw [two_zpow] at hratio
  field_simp at hratio
  have : (n : ℚ) * twoTo (-q).toNat * b = a * (d * twoTo q.toNat) := by linarith
  exact_mod_cast this

end

/-- A ratio of canonical form is its own nearest number. -/
theorem nearest_of_ratio (negative : Bool) {n d m : Nat} {q : Int} (hd : 0 < d) (hm : 0 < m)
    (hc : Canonical m q) (hratio : (n : ℚ) / d = m * 2 ^ q) :
    nearest negative n d = .finite ⟨negative, m, q, hc⟩ := by
  have hscaled : (n : ℚ) / d = m / (1 : Nat) * 2 ^ q := by rw [hratio, Nat.cast_one, div_one]
  have hn : n ≠ 0 := (pos_of_scaled hd hm one_pos hscaled).ne'
  have ⟨hlt, hlow, _, hform⟩ := hc
  have hexponent : max (floorLog2 n d - 52) (-1074) = q :=
    exponent_of_scaled hd hm one_pos hscaled (by omega) hlow (by omega)
  have hround : roundDiv (n * twoTo (-q).toNat) (d * twoTo q.toNat) = m := by
    rw [← Nat.mul_one (n * _), scaled_ratio hd one_pos hscaled]
    exact roundDiv_mul (Nat.mul_pos hd (twoTo_pos _)) m
  simp only [nearest, if_neg hn, hexponent, hround, if_neg hlt.ne, pack, dif_pos hc]

/-- The magnitude of a number is its own nearest number. -/
theorem nearest_of_magnitude (negative : Bool) {n d : Nat} {x : Binary64} (hd : 0 < d)
    (hratio : (n : ℚ) / d = x.magnitude) :
    nearest negative n d = .finite { x with negative := negative } := by
  rcases Nat.eq_zero_or_pos x.mantissa with hzero | hpos
  · have hn : n = 0 := by
      have hd' : (d : ℚ) ≠ 0 := by exact_mod_cast hd.ne'
      rw [magnitude, hzero, Nat.cast_zero, zero_mul, div_eq_zero_iff, or_iff_left hd'] at hratio
      exact_mod_cast hratio
    have hexponent : x.exponent = -1074 := by
      refine x.canonical.2.2.2.resolve_left ?_
      rw [hzero]
      decide
    rw [hn, nearest, if_pos rfl]
    simp only [signedZero, hzero, hexponent]
  · exact nearest_of_ratio negative hd hpos x.canonical hratio

/-! ### Whole numbers -/

/-- The form of a whole number that is not zero has a mantissa of 53 bits. -/
theorem exists_canonical_whole {k : Nat} (hpos : 0 < k) (hlt : k < 2 ^ 53) :
    ∃ m q, Canonical m q ∧ hiddenBit ≤ m ∧ (k : ℚ) = m * 2 ^ q := by
  have hlog : Nat.log2 k ≤ 52 := by
    have := (Nat.log2_lt hpos.ne').2 hlt
    omega
  have hlow := Nat.log2_self_le hpos.ne'
  have hhigh := Nat.lt_log2_self (n := k)
  have hsum : 2 ^ Nat.log2 k * 2 ^ (52 - Nat.log2 k) = hiddenBit := by
    rw [← Nat.pow_add, Nat.add_sub_cancel' hlog]; rfl
  have hnormal : hiddenBit ≤ k * 2 ^ (52 - Nat.log2 k) :=
    calc hiddenBit = 2 ^ Nat.log2 k * 2 ^ (52 - Nat.log2 k) := hsum.symm
      _ ≤ k * 2 ^ (52 - Nat.log2 k) := Nat.mul_le_mul_right _ hlow
  have hmantissa : k * 2 ^ (52 - Nat.log2 k) < 2 * hiddenBit :=
    calc k * 2 ^ (52 - Nat.log2 k)
        < 2 ^ (Nat.log2 k + 1) * 2 ^ (52 - Nat.log2 k) :=
          Nat.mul_lt_mul_of_pos_right hhigh (Nat.two_pow_pos _)
      _ = 2 * (2 ^ Nat.log2 k * 2 ^ (52 - Nat.log2 k)) := by ring
      _ = 2 * hiddenBit := by rw [hsum]
  refine ⟨k * 2 ^ (52 - Nat.log2 k), (Nat.log2 k : Int) - 52,
    ⟨hmantissa, by omega, by omega, .inl hnormal⟩, hnormal, ?_⟩
  rw [Nat.cast_mul, Nat.cast_pow, mul_assoc, ← zpow_natCast, Nat.cast_two,
    ← zpow_add₀ (by norm_num), Nat.cast_sub hlog]
  simp

/-- Whole numbers below `2^53` are magnitudes of numbers. -/
theorem exists_magnitude_eq {k : Nat} (hlt : k < 2 ^ 53) : ∃ x : Binary64, x.magnitude = k := by
  rcases Nat.eq_zero_or_pos k with rfl | hpos
  · exact ⟨zero, by simp [magnitude, zero, signedZero]⟩
  · obtain ⟨m, q, hc, -, hvalue⟩ := exists_canonical_whole hpos hlt
    exact ⟨⟨false, m, q, hc⟩, hvalue.symm⟩

/-- An integer whose magnitude is that of a number is that number, up to the sign. -/
theorem ofInt_of_magnitude {x : Binary64} {i : Int} (h : x.magnitude = i.natAbs) :
    ofInt i = { x with negative := decide (i < 0) } := by
  have hratio : (i.natAbs : ℚ) / (1 : Nat) = x.magnitude := by rw [h, Nat.cast_one, div_one]
  rw [ofInt, nearest_of_magnitude _ one_pos hratio]
  rfl

/-- A number with the magnitude and the sign of an integer is that integer. -/
theorem toRat_of_magnitude {x : Binary64} {i : Int} (hneg : x.negative = decide (i < 0))
    (hmag : x.magnitude = i.natAbs) : x.toRat = i := by
  rw [toRat, hneg, hmag, Nat.cast_natAbs]
  by_cases hi : i < 0
  · rw [if_pos (decide_eq_true hi), abs_of_neg hi]
    push_cast
    ring
  · rw [if_neg (by simpa using hi), abs_of_nonneg (not_lt.1 hi)]

/-- Integers below `2^53` have an exact number. -/
theorem toRat_ofInt {i : Int} (h : i.natAbs < 2 ^ 53) : (ofInt i).toRat = i := by
  obtain ⟨x, hx⟩ := exists_magnitude_eq h
  rw [ofInt_of_magnitude hx]
  exact toRat_of_magnitude rfl hx

/-- A product whose value is an integer is exact if the integer has a number. -/
theorem exists_mul_of_magnitude {x y w : Binary64} {i : Int} (hxy : x.toRat * y.toRat = i)
    (hw : w.magnitude = i.natAbs) : ∃ z, x.mul y = .finite z ∧ z.toRat = i := by
  have hden : 0 < y.den * x.den := Nat.mul_pos y.den_pos x.den_pos
  have hmags : y.magnitude * x.magnitude = w.magnitude := by
    rw [hw, ← abs_toRat, ← abs_toRat, ← abs_mul, mul_comm, hxy, Nat.cast_natAbs, Int.cast_abs]
  have hratio : ((y.num * x.num : Nat) : ℚ) / (y.den * x.den : Nat) = w.magnitude := by
    rw [Nat.cast_mul, Nat.cast_mul, mul_div_mul_comm, num_div_den, num_div_den, hmags]
  refine ⟨_, nearest_of_magnitude (x.negative != y.negative) hden hratio, ?_⟩
  have hmag : ({ w with negative := x.negative != y.negative } : Binary64).magnitude =
      y.magnitude * x.magnitude := hmags.symm
  rw [← hxy, toRat, hmag, toRat, toRat]
  cases x.negative <;> cases y.negative <;> simp [mul_comm]

/-- A product whose value is an integer below `2^53` is exact. -/
theorem exists_mul_of_whole {x y : Binary64} {i : Int} (hxy : x.toRat * y.toRat = i)
    (h : i.natAbs < 2 ^ 53) : ∃ z, x.mul y = .finite z ∧ z.toRat = i := by
  obtain ⟨w, hw⟩ := exists_magnitude_eq h
  exact exists_mul_of_magnitude hxy hw

/-! ### Nearest integers -/

theorem natAbs_roundAway (x : Binary64) :
    x.roundAway.natAbs = (2 * x.num + x.den) / (2 * x.den) := by
  unfold roundAway
  split
  · rw [Int.natAbs_neg, Int.natAbs_natCast]
  · rw [Int.natAbs_natCast]

/-- The nearest integer has the sign of the number. -/
theorem roundAway_eq_natAbs (x : Binary64) :
    x.roundAway = if x.negative then -(x.roundAway.natAbs : Int) else x.roundAway.natAbs := by
  rw [natAbs_roundAway]
  rfl

/-- The nearest integer is less than a half away, or a half towards zero. -/
theorem natAbs_roundAway_eq_iff {x : Binary64} {k : Nat} : x.roundAway.natAbs = k ↔
    (k : ℚ) - 1 / 2 ≤ x.magnitude ∧ x.magnitude < k + 1 / 2 := by
  have hden : (0 : ℚ) < x.den := by exact_mod_cast x.den_pos
  have hlow : (k : ℚ) - 1 / 2 ≤ x.num / x.den ↔ k * (2 * x.den) ≤ 2 * x.num + x.den := by
    rw [le_div_iff₀ hden, ← Nat.cast_le (α := ℚ)]
    push_cast
    constructor <;> intro h <;> linarith
  have hhigh : (x.num : ℚ) / x.den < k + 1 / 2 ↔ 2 * x.num + x.den < (k + 1) * (2 * x.den) := by
    rw [div_lt_iff₀ hden, ← Nat.cast_lt (α := ℚ)]
    push_cast
    constructor <;> intro h <;> linarith
  rw [natAbs_roundAway, ← num_div_den, hlow, hhigh]
  have hpos : 0 < 2 * x.den := Nat.mul_pos two_pos x.den_pos
  constructor
  · rintro rfl
    exact ⟨Nat.div_mul_le_self _ _, (Nat.div_lt_iff_lt_mul hpos).1 (Nat.lt_succ_self _)⟩
  · rintro ⟨hle, hlt⟩
    exact Nat.div_eq_of_lt_le hle hlt

theorem natAbs_roundAway_of_magnitude {x : Binary64} {k : Nat} (h : x.magnitude = k) :
    x.roundAway.natAbs = k := by
  rw [natAbs_roundAway_eq_iff, h]
  constructor <;> linarith

/-- The nearest integer of a whole number is itself. -/
theorem roundAway_of_whole {x : Binary64} {i : Int} (h : x.toRat = i) : x.roundAway = i := by
  have hmag : x.magnitude = i.natAbs := by
    rw [← abs_toRat, h, Nat.cast_natAbs, Int.cast_abs]
  rw [roundAway_eq_natAbs, natAbs_roundAway_of_magnitude hmag]
  unfold toRat at h
  rw [hmag, Nat.cast_natAbs] at h
  split at h
  · next hneg =>
    rw [if_pos hneg, Int.natCast_natAbs]
    exact_mod_cast h
  · next hneg =>
    rw [if_neg hneg, Int.natCast_natAbs]
    exact_mod_cast h

end Binary64

end Console
