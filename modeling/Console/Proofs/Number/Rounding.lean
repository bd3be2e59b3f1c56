import Console.Proofs.Number.Value

/-! # Where a ratio is rounded to

    The nearest number to a ratio is an integral multiple of a power of two, which depends
    on the ratio alone: `RoundedTo` says which integer the ratio is rounded to when it is
    counted in that power.

    - `nearest_of_scaled`: the nearest number of a ratio of `2^52` to `2^53` units,
    - `nearest_error`: a number and the ratio that it is nearest to are at most half a unit
      apart,
    - `exists_multiple_of_le`: a large number is a whole number of units,
    - `exists_canonical_natAbs_roundAway`: the nearest integer of a number is a number again,
    - `magnitude_eq_natAbs_roundAway`: beyond `2^52` it is that number.
-/

namespace Console

namespace Binary64

/-! ### Nearest integers -/

/-- Says that an integer is nearest to the ratio `a / b`, and even if another one is as
    near. -/
@[mk_iff]
structure RoundedTo (a b i : Nat) : Prop where
  above : 2 * (b * i) ≤ 2 * a + b
  below : 2 * a ≤ 2 * (b * i) + b
  even : 2 * (b * i) = 2 * a + b ∨ 2 * a = 2 * (b * i) + b → i % 2 = 0

theorem roundedTo_roundDiv {n d : Nat} (hd : 0 < d) : RoundedTo n d (roundDiv n d) := by
  have hdiv : d * (n / d) + n % d = n := Nat.div_add_mod n d
  have hmod : n % d < d := Nat.mod_lt n hd
  unfold roundDiv
  by_cases hup : d < 2 * (n % d) ∨ (2 * (n % d) = d ∧ n / d % 2 = 1)
  · simp only [if_pos hup]
    have hnext : d * (n / d + 1) = d * (n / d) + d := Nat.mul_succ d (n / d)
    constructor <;> omega
  · simp only [if_neg hup]
    constructor <;> omega

/-- Only the value of the ratio matters. -/
theorem roundedTo_mul_iff {a b c i : Nat} (hc : 0 < c) :
    RoundedTo (a * c) (b * c) i ↔ RoundedTo a b i := by
  have hvalue : 2 * (b * c * i) = 2 * (b * i) * c := by ring
  have hratio : 2 * (a * c) = 2 * a * c := by ring
  simp only [roundedTo_iff, hvalue, hratio, ← Nat.add_mul, Nat.mul_le_mul_right_iff hc,
    Nat.mul_left_inj hc.ne']

theorem RoundedTo.of_ratio {n d a b i : Nat} (hd : 0 < d) (hb : 0 < b) (hratio : a * d = n * b)
    (h : RoundedTo n d i) : RoundedTo a b i := by
  have hscaled := (roundedTo_mul_iff hb).2 h
  rw [← hratio, Nat.mul_comm d b] at hscaled
  exact (roundedTo_mul_iff hd).1 hscaled

/-- The nearest integer lies between the integers that the ratio lies between. -/
theorem RoundedTo.bounds {a b i k l : Nat} (hb : 0 < b) (h : RoundedTo a b i) (hlow : k * b ≤ a)
    (hhigh : a ≤ l * b) : k ≤ i ∧ i ≤ l := by
  obtain ⟨habove, hbelow, -⟩ := h
  constructor
  · by_contra hlt
    have := Nat.mul_le_mul_left b (Nat.succ_le_of_lt (Nat.not_le.1 hlt))
    rw [Nat.mul_succ, Nat.mul_comm b k] at this
    omega
  · by_contra hgt
    have := Nat.mul_le_mul_left b (Nat.succ_le_of_lt (Nat.not_le.1 hgt))
    rw [Nat.mul_succ, Nat.mul_comm b l] at this
    omega

/-! ### Nearest numbers -/

section

variable {n d a b : Nat} {q : Int}

/-- The nearest number of a ratio of `2^52` to `2^53` units `2^q` is the nearest integral
    multiple of the unit. -/
theorem nearest_of_scaled (negative : Bool) (hd : 0 < d) (hb : 0 < b)
    (hratio : (n : ℚ) / d = a / b * 2 ^ q) (hlow : hiddenBit * b ≤ a)
    (hhigh : a < 2 * hiddenBit * b) (hq : -1074 ≤ q) (hq' : q ≤ 970) :
    ∃ (x : Binary64) (i : Nat), nearest negative n d = .finite x ∧ x.negative = negative ∧
      x.magnitude = i * 2 ^ q ∧ RoundedTo a b i := by
  have ha : 0 < a := lt_of_lt_of_le (Nat.mul_pos (by decide) hb) hlow
  have hn : n ≠ 0 := (pos_of_scaled hd ha hb hratio).ne'
  have hexponent := exponent_of_scaled hd ha hb hratio hhigh hq (.inl hlow)
  have hdT : 0 < d * twoTo q.toNat := Nat.mul_pos hd (twoTo_pos _)
  have hrounded : RoundedTo a b (roundDiv (n * twoTo (-q).toNat) (d * twoTo q.toNat)) :=
    (roundedTo_roundDiv hdT).of_ratio hdT hb (scaled_ratio hd hb hratio).symm
  obtain ⟨hle, hge⟩ := hrounded.bounds hb hlow hhigh.le
  simp only [nearest, if_neg hn, hexponent]
  generalize roundDiv (n * twoTo (-q).toNat) (d * twoTo q.toNat) = m at hrounded hle hge ⊢
  by_cases hcarry : m = 2 * hiddenBit
  · -- the mantissa is halved, and its exponent is one more
    have hc : Canonical hiddenBit (q + 1) := ⟨by decide, by omega, by omega, .inl le_rfl⟩
    refine ⟨⟨negative, hiddenBit, q + 1, hc⟩, m, ?_, rfl, ?_, hrounded⟩
    · rw [if_pos hcarry, pack, dif_pos hc]
    · rw [magnitude, hcarry, zpow_add_one₀ (by norm_num)]
      push_cast
      ring
  · have hc : Canonical m q := ⟨by omega, hq, by omega, .inl hle⟩
    refine ⟨⟨negative, m, q, hc⟩, m, ?_, rfl, rfl, hrounded⟩
    rw [if_neg hcarry, pack, dif_pos hc]

end

/-- The integer is at most a half away from the ratio. -/
theorem RoundedTo.abs_sub_le {a b i : Nat} (hb : 0 < b) (h : RoundedTo a b i) :
    |(a : ℚ) / b - i| ≤ 1 / 2 := by
  have hb' : (0 : ℚ) < b := by exact_mod_cast hb
  have habove : 2 * ((b : ℚ) * i) ≤ 2 * a + b := by exact_mod_cast h.above
  have hbelow : 2 * (a : ℚ) ≤ 2 * (b * i) + b := by exact_mod_cast h.below
  rw [abs_le]
  constructor
  · rw [neg_le_sub_iff_le_add, ← sub_le_iff_le_add, le_div_iff₀ hb']
    linarith
  · rw [sub_le_iff_le_add, div_le_iff₀ hb']
    linarith

theorem pack_eq_finite_iff {negative : Bool} {m : Nat} {q : Int} {x : Binary64} :
    pack negative m q = .finite x ↔ x.negative = negative ∧ x.mantissa = m ∧ x.exponent = q := by
  unfold pack
  constructor
  · intro h
    split at h
    · cases h
      exact ⟨rfl, rfl, rfl⟩
    · cases h
  · rintro ⟨rfl, rfl, rfl⟩
    rw [dif_pos x.canonical]

/-- The nearest number has the given sign and is half a unit of its last place away at
    most. -/
theorem nearest_error {negative : Bool} {n d : Nat} {x : Binary64} (hd : 0 < d)
    (h : nearest negative n d = .finite x) :
    x.negative = negative ∧ |(n : ℚ) / d - x.magnitude| ≤ 2 ^ x.exponent / 2 := by
  unfold nearest at h
  by_cases hn : n = 0
  · rw [if_pos hn] at h
    cases h
    refine ⟨rfl, ?_⟩
    simp only [hn, magnitude, signedZero, Nat.cast_zero, zero_div, zero_mul, sub_zero, abs_zero]
    positivity
  · rw [if_neg hn] at h
    simp only at h
    generalize max (floorLog2 n d - 52) (-1074) = q at h
    have hdT : 0 < d * twoTo q.toNat := Nat.mul_pos hd (twoTo_pos _)
    have hrounded := (roundedTo_roundDiv (n := n * twoTo (-q).toNat) hdT).abs_sub_le hdT
    generalize roundDiv (n * twoTo (-q).toNat) (d * twoTo q.toNat) = m at h hrounded
    have hpow : (0 : ℚ) < 2 ^ q := by positivity
    -- the error is counted in units, and a carry only makes the unit larger
    have herror : |(n : ℚ) / d - m * 2 ^ q| ≤ 2 ^ q / 2 := by
      have hratio : (n : ℚ) / d =
          (n * twoTo (-q).toNat : Nat) / (d * twoTo q.toNat : Nat) * 2 ^ q := by
        have ht : (twoTo (-q).toNat : ℚ) ≠ 0 := by exact_mod_cast (twoTo_pos _).ne'
        have ht' : (twoTo q.toNat : ℚ) ≠ 0 := by exact_mod_cast (twoTo_pos _).ne'
        rw [two_zpow]
        push_cast
        field_simp
      rw [hratio, ← sub_mul, abs_mul, abs_of_pos hpow]
      exact (mul_le_mul_of_nonneg_right hrounded hpow.le).trans (by linarith)
    split at h
    · next hcarry =>
      obtain ⟨hneg, hmantissa, hexponent⟩ := pack_eq_finite_iff.1 h
      have hmag : x.magnitude = m * 2 ^ q := by
        rw [magnitude, hmantissa, hexponent, hcarry, zpow_add_one₀ (by norm_num)]
        push_cast
        ring
      rw [hmag, hexponent, zpow_add_one₀ (by norm_num)]
      exact ⟨hneg, herror.trans (by linarith)⟩
    · obtain ⟨hneg, hmantissa, hexponent⟩ := pack_eq_finite_iff.1 h
      rw [magnitude, hmantissa, hexponent]
      exact ⟨hneg, herror⟩

/-- A number has one form only. -/
theorem eq_of_magnitude_eq {x : Binary64} {m : Nat} {q : Int} (hc : Canonical m q) (hm : 0 < m)
    (h : x.magnitude = m * 2 ^ q) : x.mantissa = m ∧ x.exponent = q := by
  have hpos : 0 < x.mantissa := by
    rw [Nat.pos_iff_ne_zero]
    intro hzero
    have : (0 : ℚ) < m * 2 ^ q := by positivity
    rw [← h, magnitude, hzero, Nat.cast_zero, zero_mul] at this
    exact lt_irrefl _ this
  -- both forms are those of the number that is nearest to their value
  have hown := nearest_of_ratio x.negative x.den_pos hpos x.canonical (num_div_den x)
  rw [nearest_of_ratio x.negative x.den_pos hm hc ((num_div_den x).trans h)] at hown
  cases hown
  exact ⟨rfl, rfl⟩

/-- From `2^52` units on every number is a whole number of units. -/
theorem exists_multiple_of_le {x : Binary64} {q : Int} (h : 2 ^ 52 * 2 ^ q ≤ x.magnitude) :
    ∃ g : Nat, x.magnitude = g * 2 ^ q := by
  have hexponent : q ≤ x.exponent := by
    by_contra hlt
    have hmantissa : (x.mantissa : ℚ) < 2 ^ 53 := by exact_mod_cast x.canonical.1
    have hunit : (2 : ℚ) ^ x.exponent * 2 ≤ 2 ^ q := by
      rw [← zpow_add_one₀ (by norm_num)]
      exact zpow_le_zpow_right₀ (by norm_num) (by omega)
    have hmag : x.magnitude < 2 ^ 53 * 2 ^ x.exponent :=
      mul_lt_mul_of_pos_right hmantissa (by positivity)
    linarith
  refine ⟨x.mantissa * 2 ^ (x.exponent - q).toNat, ?_⟩
  rw [magnitude]
  push_cast
  rw [← zpow_natCast, Int.toNat_of_nonneg (by omega), mul_assoc, ← zpow_add₀ (by norm_num),
    sub_add_cancel]

/-! ### Nearest integers that are numbers -/

variable {x : Binary64}

/-- Beyond `2^52` every number is whole. -/
theorem magnitude_eq_natAbs_roundAway (h : 2 ^ 52 < x.roundAway.natAbs) :
    x.magnitude = x.roundAway.natAbs ∧ 0 ≤ x.exponent := by
  obtain ⟨hlow, -⟩ := natAbs_roundAway_eq_iff.1 (rfl : x.roundAway.natAbs = _)
  have hexponent : 0 ≤ x.exponent := by
    by_contra hneg
    have hpow : (2 : ℚ) ^ x.exponent ≤ 2 ^ (-1 : Int) :=
      zpow_le_zpow_right₀ (by norm_num) (by omega)
    have hmantissa : (x.mantissa : ℚ) ≤ 2 ^ 53 - 1 := by
      have : x.mantissa + 1 ≤ 2 ^ 53 := x.canonical.1
      rw [le_sub_iff_add_le]
      exact_mod_cast this
    have hmag : x.magnitude ≤ 2 ^ 52 - 1 / 2 :=
      calc x.magnitude ≤ (2 ^ 53 - 1) * 2 ^ (-1 : Int) :=
            mul_le_mul hmantissa hpow (by positivity) (by norm_num)
        _ = 2 ^ 52 - 1 / 2 := by norm_num
    have hround : (2 ^ 52 + 1 : ℚ) ≤ x.roundAway.natAbs := by exact_mod_cast h
    linarith
  have hwhole : x.magnitude = (x.mantissa * 2 ^ x.exponent.toNat : Nat) := by
    rw [magnitude]
    push_cast
    rw [← zpow_natCast, Int.toNat_of_nonneg hexponent]
  exact ⟨hwhole.trans (by rw [natAbs_roundAway_of_magnitude hwhole]), hexponent⟩

/-- The nearest integer of a number is a number, of a mantissa with 53 bits. -/
theorem exists_canonical_natAbs_roundAway (h : x.roundAway ≠ 0) :
    ∃ m q, Canonical m q ∧ hiddenBit ≤ m ∧ (x.roundAway.natAbs : ℚ) = m * 2 ^ q := by
  have hpos : 0 < x.roundAway.natAbs := Int.natAbs_pos.2 h
  by_cases hlarge : 2 ^ 52 < x.roundAway.natAbs
  · obtain ⟨hmag, hexponent⟩ := magnitude_eq_natAbs_roundAway hlarge
    refine ⟨x.mantissa, x.exponent, x.canonical, ?_, hmag.symm⟩
    exact x.canonical.2.2.2.resolve_right (by omega)
  · exact exists_canonical_whole hpos (by omega)

theorem exists_magnitude_natAbs_roundAway (x : Binary64) :
    ∃ w : Binary64, w.magnitude = x.roundAway.natAbs := by
  by_cases h : x.roundAway = 0
  · exact ⟨zero, by rw [h]; simp [magnitude, zero, signedZero]⟩
  · obtain ⟨m, q, hc, -, hvalue⟩ := exists_canonical_natAbs_roundAway h
    exact ⟨⟨false, m, q, hc⟩, hvalue.symm⟩

end Binary64

end Console
