import Hotswap.Decimal.Binary

/-!
# The shortest decimal of a binary number

Among the decimals that round to a given binary number, some have the fewest digits, and of those
one is nearest to the number. `shortest` finds it in exact arithmetic. For one digit, then two, and
so on, it looks at the two neighbours of the number on the grid of decimals with that many digits;
the first grid with a neighbour that rounds to the number gives the answer. If both neighbours do,
the nearer one is taken, and `Tie` says which one when they are equally near.
-/

namespace Hotswap.Decimal

/-- Which of two equally near decimals is taken. -/
inductive Tie where
  /-- The larger one. -/
  | up
  /-- The one with an even last digit. -/
  | toEven
  deriving DecidableEq, Repr

/-- The decimal `digits * 10 ^ exponent`. -/
structure Digits where
  /-- The digits, as one number. -/
  digits : Nat
  /-- The power of ten of the last digit. -/
  exponent : Int
  deriving DecidableEq, Repr

/-- Drops zeros at the end of the digits; the fuel bounds their number. -/
def Digits.trim : Nat → Digits → Digits
  | 0, d => d
  | fuel + 1, d =>
    if d.digits ≠ 0 ∧ d.digits % 10 = 0 then trim fuel ⟨d.digits / 10, d.exponent + 1⟩ else d

/-- The reals that round to a number, in quarters of its unit: `low` to `high` around `value`, all
times `2 ^ exponent`. -/
structure Interval where
  /-- The lower end. -/
  low : Nat
  /-- The number itself. -/
  value : Nat
  /-- The upper end. -/
  high : Nat
  /-- The power of two of a quarter unit. -/
  exponent : Int
  /-- Whether the ends round to the number too. -/
  closed : Bool

/-- The reals that round to `significand * 2 ^ exponent`. The gap below a power of two is half the
gap above it, and the ends belong to the number with the even significand. -/
def Interval.around (f : BinaryFormat) (significand : Nat) (exponent : Int) : Interval where
  low := if significand = Nat.pow 2 f.fractionBits ∧ f.minExponent < exponent
    then 4 * significand - 1 else 4 * significand - 2
  value := 4 * significand
  high := 4 * significand + 2
  exponent := exponent - 2
  closed := significand % 2 == 0

/-- A multiplier and a divisor that together scale by `2 ^ two * 10 ^ ten`. -/
def scales (two ten : Int) : Nat × Nat :=
  (Nat.pow 2 two.toNat * Nat.pow 10 ten.toNat, Nat.pow 2 (-two).toNat * Nat.pow 10 (-ten).toNat)

/-- The greatest power of ten that is at most `value * 2 ^ exponent`, for a positive `value`. -/
def decimalExponent (value : Nat) (exponent : Int) : Int :=
  let binary : Int := (value.log2 : Int) + exponent
  let guess := Int.fdiv (binary * 30103) 100000
  let atLeast (e : Int) : Bool :=
    let (mul, div) := scales exponent (-e)
    decide (div ≤ value * mul)
  if atLeast (guess + 1) then guess + 1 else if atLeast guess then guess else guess - 1

/-- The neighbour of the number on the grid of multiples of `10 ^ ten` that rounds to the number,
if there is one. -/
def Interval.onGrid? (i : Interval) (tie : Tie) (ten : Int) : Option Nat :=
  let (mul, div) := scales i.exponent (-ten)
  let below := i.value * mul / div
  let inside (d : Nat) : Bool :=
    if i.closed then decide (i.low * mul ≤ d * div) && decide (d * div ≤ i.high * mul)
    else decide (i.low * mul < d * div) && decide (d * div < i.high * mul)
  let lower := inside below && below != 0
  let upper := inside (below + 1)
  let rest := i.value * mul % div
  match lower, upper with
  | false, false => none
  | true, false => some below
  | false, true => some (below + 1)
  | true, true =>
    if 2 * rest < div then some below
    else if div < 2 * rest then some (below + 1)
    else match tie with
      | .up => some (below + 1)
      | .toEven => if below % 2 = 0 then some below else some (below + 1)

/-- Looks for the first grid with an answer, from the coarsest on; the fuel bounds the digits. -/
def Interval.search (i : Interval) (tie : Tie) : Nat → Int → Digits
  | 0, ten => ⟨i.value, ten⟩
  | fuel + 1, ten =>
    match i.onGrid? tie ten with
    | some d => Digits.trim 20 ⟨d, ten⟩
    | none => search i tie fuel (ten - 1)

/-- The shortest decimal that rounds to `significand * 2 ^ exponent`, for a positive
`significand`. Seventeen digits are always enough. -/
def shortest (f : BinaryFormat) (tie : Tie) (significand : Nat) (exponent : Int) : Digits :=
  let i := Interval.around f significand exponent
  i.search tie 18 (decimalExponent significand exponent)

end Hotswap.Decimal
