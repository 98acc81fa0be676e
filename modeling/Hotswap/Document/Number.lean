import Hotswap.Decimal.Reader

/-!
# Numbers in documents

A numeral without a point and without an exponent is an integer while it fits in 64 bits, signed or
unsigned; `-0` is not an integer. Every other numeral is a floating-point number. Its digits are
collected while they fit in 64 bits. Whole digits beyond that count as powers of ten and decimals
beyond that are dropped. The collected digits become the nearest floating-point number, which is
then multiplied or divided by a power of ten. So the result is close to the numeral but need not be
the number nearest to it. A result beyond the largest number is refused.
-/

namespace Hotswap.Document

/-- The integers of 64 bits with a sign are less than this number and not less than its opposite. -/
def int64Bound : Nat := 9223372036854775808

/-- What a numeral stands for. -/
inductive Number where
  /-- An integer that is not negative. -/
  | nat (n : UInt64)
  /-- A negative integer. -/
  | neg (n : Int64)
  /-- A floating-point number. -/
  | float (x : Float)
  deriving DecidableEq

namespace Number

/-- The integer, if it is one of 64 bits with a sign. -/
def toInt64? : Number → Option Int64
  | .nat n => if n.toNat < int64Bound then some n.toInt64 else none
  | .neg n => some n
  | .float _ => none

/-- The integer, if it is not negative and less than a bound. -/
def below? (bound : Nat) : Number → Option Nat
  | .nat n => if n.toNat < bound then some n.toNat else none
  | _ => none

/-- The floating-point number nearest to the number. -/
def toFloat : Number → Float
  | .nat n => n.toFloat
  | .neg n => n.toFloat
  | .float x => x

end Number

/-- Digits with the power of ten that they have been scaled by. -/
structure Collected where
  /-- The digits, as a number of 64 bits. -/
  significand : Nat
  /-- The power of ten. -/
  exponent : Int

/-- Collects whole digits. After the first one that does not fit, each counts as a power of ten. -/
def collectWhole : (full : Bool) → Collected → List Char → Collected × Bool
  | full, c, [] => (c, full)
  | full, c, d :: rest =>
    let next := c.significand * 10 + Decimal.digitValue d
    if !full && next < UInt64.size then collectWhole false ⟨next, c.exponent⟩ rest
    else collectWhole true ⟨c.significand, c.exponent + 1⟩ rest

/-- Collects decimals, up to the first one that does not fit. -/
def collectDecimals : Collected → List Char → Collected
  | c, [] => c
  | c, d :: rest =>
    let next := c.significand * 10 + Decimal.digitValue d
    if next < UInt64.size then collectDecimals ⟨next, c.exponent - 1⟩ rest else c

/-- The floating-point number nearest to a power of ten. -/
def powerOfTen (n : Nat) : Float :=
  Float.ofBits (UInt64.ofNat (Decimal.BinaryFormat.double.nearest (Nat.pow 10 n) 1))

/-- Scales a number by a power of ten. The powers in reach end at 308, so a smaller number takes
more than one division; the fuel bounds them, and two make every number zero. -/
def scaleByTen : Nat → Float → Int → Option Float
  | 0, x, _ => some x
  | fuel + 1, x, e =>
    if e.natAbs ≤ 308 then
      if 0 ≤ e then
        let y := x * powerOfTen e.natAbs
        if y.isInf then none else some y
      else some (x / powerOfTen e.natAbs)
    else if x == 0 then some x
    else if 0 ≤ e then none
    else scaleByTen fuel (x / powerOfTen 308) (e + 308)

/-- Keeps an exponent within 32 bits. -/
def clampExponent (e : Int) : Int := max Int32.minValue.toInt (min e Int32.maxValue.toInt)

/-- The number of collected digits with an exponent that is written after them, if one is. -/
def finishFloat (negative : Bool) (c : Collected) (written : Option (Bool × Nat)) : Option Float :=
  let signed (x : Float) : Float := if negative then -x else x
  let scaled (e : Int) := (scaleByTen 4 (UInt64.ofNat c.significand).toFloat e).map signed
  match written with
  | none => scaled c.exponent
  | some (negativeExponent, e) =>
    if Int32.maxValue.toInt < e then
      if c.significand ≠ 0 ∧ !negativeExponent then none else some (signed 0)
    else scaled (clampExponent (if negativeExponent then c.exponent - e else c.exponent + e))

/-- Reads the exponent of a numeral, its mark included. -/
def readMark : List Char → Option (Bool × Nat)
  | _ :: rest =>
    let (negative, digits) := Decimal.takeSign rest
    some (negative, Decimal.natOfDigits digits)
  | [] => none

/-- What a numeral stands for. -/
def numberOf? (numeral : String) : Option Number :=
  let (negative, cs) := Decimal.takeSign numeral.toList
  let (c, full) := collectWhole false ⟨0, 0⟩ (cs.takeWhile Char.isDigit)
  match cs.dropWhile Char.isDigit with
  | [] =>
    if full then (finishFloat negative c none).map .float
    else if !negative then some (.nat (UInt64.ofNat c.significand))
    else if c.significand = 0 ∨ int64Bound < c.significand then
      some (.float (-(UInt64.ofNat c.significand).toFloat))
    else some (.neg (Int64.ofInt (-(c.significand : Int))))
  | '.' :: rest =>
    let c := collectDecimals c (rest.takeWhile Char.isDigit)
    (finishFloat negative c (readMark (rest.dropWhile Char.isDigit))).map .float
  | rest => (finishFloat negative c (readMark rest)).map .float

end Hotswap.Document
