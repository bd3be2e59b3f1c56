/-! # Binary64 numbers as exact rationals

    A finite binary64 number is a sign and a canonical pair `m · 2^q`, so every
    operation is exact arithmetic on naturals followed by one rounding:

    - `Binary64.nearest` rounds a ratio to the nearest number, ties to even,
    - `mul`, `div` and `ofInt` round the exact product, quotient and integer,
    - `truncate` and `roundAway` leave the binary grid for the integers.

    `Extended` adds the infinities and NaN, which only displayed numbers reach.
-/

namespace Console

/-! ### Powers -/

/-- The power `2^n`. -/
def twoTo (n : Nat) : Nat := Nat.pow 2 n

/-- The power `10^n`. -/
def tenTo (n : Nat) : Nat := Nat.pow 10 n

/-! ### The numbers -/

/-- The least mantissa of a number that is not subnormal: `2^52`. -/
def hiddenBit : Nat := 4503599627370496

/-- Says that `m · 2^q` is the form that binary64 gives to a finite magnitude. -/
def Canonical (m : Nat) (q : Int) : Prop :=
  m < 2 * hiddenBit ∧ -1074 ≤ q ∧ q ≤ 971 ∧ (hiddenBit ≤ m ∨ q = -1074)

instance (m : Nat) (q : Int) : Decidable (Canonical m q) := by
  unfold Canonical; infer_instance

/-- A finite binary64 number: `± mantissa · 2^exponent`, zero with either sign. -/
structure Binary64 where
  negative : Bool
  mantissa : Nat
  exponent : Int
  /-- Each magnitude has one form only. -/
  canonical : Canonical mantissa exponent
  deriving DecidableEq

/-- A binary64 number, finite or not. -/
inductive Extended where
  | finite (x : Binary64)
  | infinite (negative : Bool)
  | nan
  deriving DecidableEq

namespace Binary64

/-- The zero of the given sign. -/
def signedZero (negative : Bool) : Binary64 :=
  ⟨negative, 0, -1074, by decide⟩

/-- Positive zero. -/
def zero : Binary64 := signedZero false

instance : Inhabited Binary64 := ⟨zero⟩

/-- Whether the number is a zero of either sign. -/
def isZero (x : Binary64) : Bool := x.mantissa == 0

/-- The numerator of the magnitude. -/
def num (x : Binary64) : Nat := x.mantissa * twoTo x.exponent.toNat

/-- The denominator of the magnitude, a power of two. -/
def den (x : Binary64) : Nat := twoTo (-x.exponent).toNat

/-- The opposite number; the sign of zero changes too. -/
def neg (x : Binary64) : Binary64 := { x with negative := !x.negative }

/-- Equality of values: the two zeros are equal. -/
def sameValue (x y : Binary64) : Bool := x == y || (x.isZero && y.isZero)

/-! ### Rounding -/

/-- The ratio `n / d` rounded to an integer, a half going to the even neighbour. -/
def roundDiv (n d : Nat) : Nat :=
  let floor := n / d
  let twice := 2 * (n % d)
  if d < twice ∨ (twice = d ∧ floor % 2 = 1) then floor + 1 else floor

/-- The greatest `e` with `2^e ≤ n / d`, for positive `n` and `d`. The difference
    of the two logarithms is that `e` or one above it. -/
def floorLog2 (n d : Nat) : Int :=
  let e : Int := (Nat.log2 n : Int) - Nat.log2 d
  if d * twoTo e.toNat ≤ n * twoTo (-e).toNat then e else e - 1

/-- The number `± m · 2^q`, or an infinity where `q` is too large for the format. -/
def pack (negative : Bool) (m : Nat) (q : Int) : Extended :=
  if h : Canonical m q then .finite ⟨negative, m, q, h⟩ else .infinite negative

/-- The number nearest to `± n / d`, ties to even; an infinity beyond the range. -/
def nearest (negative : Bool) (n d : Nat) : Extended :=
  if n = 0 then .finite (signedZero negative)
  else
    let q := max (floorLog2 n d - 52) (-1074)
    let m := roundDiv (n * twoTo (-q).toNat) (d * twoTo q.toNat)
    -- rounding up may carry into the next power of two
    if m = 2 * hiddenBit then pack negative hiddenBit (q + 1) else pack negative m q

/-- The number nearest to `digits · 10^exponent`. -/
def ofDecimal (negative : Bool) (digits : Nat) (exponent : Int) : Extended :=
  nearest negative (digits * tenTo exponent.toNat) (tenTo (-exponent).toNat)

/-! ### Arithmetic -/

/-- The product, rounded once. -/
def mul (x y : Binary64) : Extended :=
  nearest (x.negative != y.negative) (y.num * x.num) (y.den * x.den)

/-- The quotient by a nonzero number, rounded once. -/
def div (x y : Binary64) : Extended :=
  nearest (x.negative != y.negative) (y.den * x.num) (y.num * x.den)

end Binary64

/-- The finite number, if it is one, else `fallback`. -/
def Extended.getD (x : Extended) (fallback : Binary64) : Binary64 :=
  match x with
  | .finite y => y
  | _ => fallback

namespace Binary64

/-- The number nearest to an integer. Integers below `2^1023` never overflow. -/
def ofInt (i : Int) : Binary64 :=
  (nearest (i < 0) i.natAbs 1).getD zero

/-- The integer part as a number; a zero result is positive. -/
def truncate (x : Binary64) : Binary64 :=
  let whole := x.num / x.den
  if whole = 0 then zero else (nearest x.negative whole 1).getD zero

/-- The nearest integer, a half going away from zero. -/
def roundAway (x : Binary64) : Int :=
  let magnitude : Nat := (2 * x.num + x.den) / (2 * x.den)
  if x.negative then -(magnitude : Int) else magnitude

end Binary64

end Console
