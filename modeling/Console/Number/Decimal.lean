import Console.Number.Binary64

/-! # Decimal text of binary64 numbers

    Three texts are written:

    - `Binary64.shortest` finds the fewest digits that read back, and `Layout`
      says where positional text ends and exponents begin,
    - `Binary64.positional` is the same digits without any exponent,
    - `Binary64.fixed` is the exact value rounded to given decimal places.

    The search compares exact naturals: a decimal reads back as `m · 2^q` when
    it lies in the interval of reals that round to it, ends included for even `m`.
-/

namespace Console

/-! ### Digits -/

/-- The decimal `digits · 10^exponent`. -/
structure Decimal where
  digits : Nat
  exponent : Int
  deriving DecidableEq

/-- Which of two equally near decimals is written. -/
inductive Tie where
  | up
  | toEven
  deriving DecidableEq

/-- The number of decimal digits of `n`, none for zero. -/
def digitCount (n : Nat) : Nat :=
  if n = 0 then 0 else digitCount (n / 10) + 1
termination_by n

/-- The greatest `e` with `10^e ≤ n / d`, for positive `n` and `d`. Below one the
    least `j` with `d ≤ 10^j · n` is the digit count of `(d - 1) / n`. -/
def floorLog10 (n d : Nat) : Int :=
  if d ≤ n then (digitCount (n / d) : Int) - 1 else -(digitCount ((d - 1) / n) : Int)

/-- The same decimal without trailing zeros in its digits. -/
def Decimal.strip (x : Decimal) : Decimal :=
  if x.digits ≠ 0 ∧ x.digits % 10 = 0 then strip ⟨x.digits / 10, x.exponent + 1⟩ else x
termination_by x.digits
decreasing_by simp_all; omega

/-! ### The shortest decimal that reads back -/

/-- The reals that round to `x`, in units of a quarter of its last place: from
    `low` to `high`, with `mid` the value itself; all are divided by `unit`. The
    lower half is narrower just above a power of two. -/
structure Rounding where
  low : Nat
  mid : Nat
  high : Nat
  unit : Nat
  inclusive : Bool

/-- The interval of reals that round to a nonzero `x`. -/
def Binary64.rounding (x : Binary64) : Rounding :=
  let below := if x.mantissa = hiddenBit ∧ x.exponent ≠ -1074 then 1 else 2
  let up := twoTo (x.exponent - 2).toNat
  { low := (4 * x.mantissa - below) * up
    mid := 4 * x.mantissa * up
    high := (4 * x.mantissa + 2) * up
    unit := twoTo (2 - x.exponent).toNat
    inclusive := x.mantissa % 2 == 0 }

namespace Rounding

/-- Whether `digits · 10^exponent` reads back as the number. -/
def holds (r : Rounding) (digits : Nat) (exponent : Int) : Bool :=
  let value := digits * tenTo exponent.toNat * r.unit
  let scale := tenTo (-exponent).toNat
  if r.inclusive then r.low * scale ≤ value && value ≤ r.high * scale
  else r.low * scale < value && value < r.high * scale

/-- The decimal with last place `10^exponent` that reads back: of the value's two
    neighbours on that grid, the nearer one that does. -/
def onGrid (r : Rounding) (tie : Tie) (exponent : Int) : Option Decimal :=
  let step := tenTo exponent.toNat * r.unit
  let value := r.mid * tenTo (-exponent).toNat
  let floor := value / step
  match r.holds floor exponent, r.holds (floor + 1) exponent with
  | true, true =>
    -- both neighbours read back, so the nearer one is written
    let twice := 2 * (value % step)
    let upward : Bool := match tie with
      | .up => step ≤ twice
      | .toEven => step < twice || (step == twice && floor % 2 == 1)
    some ⟨if upward then floor + 1 else floor, exponent⟩
  | true, false => some ⟨floor, exponent⟩
  | false, true => some ⟨floor + 1, exponent⟩
  | false, false => none

end Rounding

/-- The decimal with the fewest digits that reads back as `x`, and of those the
    nearest. Seventeen digits always read back. -/
def Binary64.shortest (tie : Tie) (x : Binary64) : Decimal :=
  if x.isZero then ⟨0, 0⟩
  else
    let top := floorLog10 x.num x.den
    -- from one digit to seventeen, the coarsest grid first
    let grids := (List.range 17).map fun (k : Nat) => top - (k : Int)
    ((grids.findSome? (x.rounding.onGrid tie)).getD ⟨0, 0⟩).strip

/-! ### Text -/

/-- A row of `n` zeros. -/
def zeros (n : Nat) : String := "".pushn '0' n

/-- The decimal exponent of the first digit. -/
def Decimal.magnitude (x : Decimal) : Int :=
  if x.digits = 0 then 0 else x.exponent + digitCount x.digits - 1

/-- The decimal without an exponent: `1200`, `1.2`, `0.0012`. -/
def Decimal.positional (x : Decimal) : String :=
  let text := toString x.digits
  if 0 ≤ x.exponent then text ++ zeros x.exponent.toNat
  else
    let places := (-x.exponent).toNat
    if places < text.length then
      String.ofList (text.toList.take (text.length - places)) ++ "."
        ++ String.ofList (text.toList.drop (text.length - places))
    else "0." ++ zeros (places - text.length) ++ text

/-- The decimal with one digit before the point and a signed exponent: `1.2e+30`. -/
def Decimal.scientific (x : Decimal) : String :=
  let mantissa := match (toString x.digits).toList with
    | [] => ""
    | [d] => d.toString
    | d :: rest => d.toString ++ "." ++ String.ofList rest
  let power := x.magnitude
  mantissa ++ "e" ++ (if power < 0 then "-" else "+") ++ toString power.natAbs

/-- How a number is laid out as shortest digits. -/
structure Layout where
  /-- The least decimal exponent written positionally. -/
  least : Int
  /-- The greatest decimal exponent written positionally. -/
  greatest : Int
  /-- Whether whole positional numbers end in `.0`. -/
  point : Bool
  tie : Tie

/-- Numbers as the console shows them: whole numbers bare, exponents from `1e21` up
    and below `1e-6`. -/
def Layout.console : Layout := ⟨-6, 20, false, .up⟩

/-- Numbers as JSON text has them: always a point or an exponent. -/
def Layout.json : Layout := ⟨-5, 15, true, .toEven⟩

namespace Binary64

/-- The mark of a negative number. -/
def sign (x : Binary64) : String := if x.negative then "-" else ""

/-- The shortest text of `x` in the given layout. -/
def text (layout : Layout) (x : Binary64) : String :=
  let d := x.shortest layout.tie
  let body :=
    if layout.least ≤ d.magnitude ∧ d.magnitude ≤ layout.greatest then
      d.positional ++ (if layout.point && 0 ≤ d.exponent then ".0" else "")
    else d.scientific
  x.sign ++ body

/-- The shortest text of `x` without any exponent. -/
def positional (x : Binary64) : String :=
  x.sign ++ (x.shortest .up).positional

/-- The number with exactly `places` decimal places, the exact value rounded with halves to
    even. Every place beyond the binary ones is a zero. -/
def fixed (places : Nat) (x : Binary64) : String :=
  let exact := min places (-x.exponent).toNat
  let scaled := roundDiv (x.num * tenTo exact) x.den
  let digits := toString scaled
  let padded := zeros (exact + 1 - digits.length) ++ digits
  let whole := String.ofList (padded.toList.take (padded.length - exact))
  let fraction := String.ofList (padded.toList.drop (padded.length - exact))
  x.sign ++ whole ++ (if places = 0 then "" else "." ++ fraction ++ zeros (places - exact))

end Binary64

/-- A number as the console shows it. -/
def Extended.display : Extended → String
  | .finite x => x.text .console
  | .infinite false => "Infinity"
  | .infinite true => "-Infinity"
  | .nan => "NaN"

end Console
