import Hotswap.Decimal.Binary

/-!
# Exact operations on floating-point numbers

The operations that a machine's own arithmetic does not give directly: the integer part of a number,
the remainder of a division and the rounding of a number to a whole one. Integer part and remainder
are computed exactly on the number's significand and exponent.
-/

namespace Hotswap

open Decimal (BinaryFormat Parts)

/-- What a number of 64 bits is made of. -/
def Floating.parts (x : Float) : Parts := BinaryFormat.double.parts x.toBits.toNat

/-- Whether a number is neither infinite nor without value. -/
def Floating.isFinite (x : Float) : Bool :=
  match Floating.parts x with
  | .finite .. => true
  | _ => false

/-- An integer with a sign. -/
def signed (negative : Bool) (n : Nat) : Int := if negative then -(n : Int) else n

/-- Brings an integer into a range. -/
def clamp (low high n : Int) : Int := max low (min high n)

/-- The integer part of a number, brought into a range; an infinity is the end of the range on its
side, and what is not a number is zero. -/
def Floating.truncate (low high : Int) (x : Float) : Int :=
  match Floating.parts x with
  | .nan => 0
  | .infinite negative => if negative then low else high
  | .finite negative significand exponent =>
    let n := significand * Nat.pow 2 exponent.toNat / Nat.pow 2 (-exponent).toNat
    clamp low high (signed negative n)

/-- The integer part of a number as an integer of 64 bits, the nearest one if it is out of range. -/
def Floating.toInt64Saturating (x : Float) : Int64 :=
  Int64.ofInt (Floating.truncate Int64.minValue.toInt Int64.maxValue.toInt x)

/-- What is not a number. -/
def Floating.undefined : Float := 0.0 / 0.0

/-- The number `significand * 2 ^ exponent` with a sign. -/
def Floating.ofParts (negative : Bool) (significand : Nat) (exponent : Int) : Float :=
  let bits := BinaryFormat.double.nearest (significand * Nat.pow 2 exponent.toNat)
    (Nat.pow 2 (-exponent).toNat)
  Float.ofBits (UInt64.ofNat (bits + if negative then BinaryFormat.double.signBit else 0))

/-- The remainder of a division whose quotient is cut to a whole number; it has the sign of the
dividend. -/
def Floating.remainder (x y : Float) : Float :=
  match Floating.parts x, Floating.parts y with
  | .finite negative m e, .finite _ n f =>
    if n = 0 then Floating.undefined
    else
      let unit := min e f
      Floating.ofParts negative
        (m * Nat.pow 2 (e - unit).toNat % (n * Nat.pow 2 (f - unit).toNat)) unit
  | .finite .., .infinite _ => x
  | _, _ => Floating.undefined

/-- The whole number nearest to a number; a half goes to the even one. Adding and taking away
`2 ^ 52` drops the decimals of a smaller number in that manner, and a larger number has none. -/
def Floating.roundHalfEven (x : Float) : Float :=
  let limit : Float := 4503599627370496
  let magnitude := x.abs
  if magnitude < limit then
    let rounded := magnitude + limit - limit
    if x.toBits >>> 63 = 1 then -rounded else rounded
  else x

/-- The larger of two numbers. One that is not a number gives way to the other, and of two equal
ones, which may differ in the sign of zero, it is the second. -/
def Floating.larger (x y : Float) : Float := if y.isNaN || y < x then x else y

/-- The smaller of two numbers. One that is not a number gives way to the other, and of two equal
ones, which may differ in the sign of zero, it is the second. -/
def Floating.smaller (x y : Float) : Float := if y.isNaN || x < y then x else y

end Hotswap
