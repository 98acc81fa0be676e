/-!
# Binary floating-point formats

A `BinaryFormat` gives the size of a binary interchange format. A finite number of the format is
`significand * 2 ^ exponent`, and the two functions here go between such pairs and the bits of the
format in exact arithmetic: `BinaryFormat.parts` reads the bits, and `BinaryFormat.nearest` gives
the bits of the number nearest to a quotient, a half going to the even neighbour.
-/

namespace Hotswap.Decimal

/-- The size of a binary floating-point format. -/
structure BinaryFormat where
  /-- The number of bits of a full significand, the hidden bit included. -/
  precision : Nat
  /-- The number of bits of the exponent field. -/
  exponentBits : Nat

/-- The format of 32 bits. -/
def BinaryFormat.single : BinaryFormat := ⟨24, 8⟩

/-- The format of 64 bits. -/
def BinaryFormat.double : BinaryFormat := ⟨53, 11⟩

/-- A number read from its bits. -/
inductive Parts where
  /-- The number `significand * Nat.pow 2 exponent`, with a sign that also zero has. -/
  | finite (negative : Bool) (significand : Nat) (exponent : Int)
  /-- An infinity. -/
  | infinite (negative : Bool)
  /-- Not a number. -/
  | nan
  deriving DecidableEq, Repr

namespace BinaryFormat

/-- The number of bits of the stored fraction. -/
def fractionBits (f : BinaryFormat) : Nat := f.precision - 1

/-- The exponent of the least unit, which is that of the subnormal numbers. -/
def minExponent (f : BinaryFormat) : Int :=
  2 - (Nat.pow 2 (f.exponentBits - 1) : Nat) - (f.fractionBits : Int)

/-- The biased exponent of the infinities. -/
def infiniteField (f : BinaryFormat) : Nat := Nat.pow 2 f.exponentBits - 1

/-- The bits of positive infinity. -/
def infinityBits (f : BinaryFormat) : Nat := f.infiniteField * Nat.pow 2 f.fractionBits

/-- The bit that is set in negative numbers, as a number. -/
def signBit (f : BinaryFormat) : Nat := Nat.pow 2 (f.fractionBits + f.exponentBits)

/-- Reads the bits of a number. -/
def parts (f : BinaryFormat) (bits : Nat) : Parts :=
  let negative := bits / f.signBit % 2 == 1
  let field := bits / Nat.pow 2 f.fractionBits % Nat.pow 2 f.exponentBits
  let fraction := bits % Nat.pow 2 f.fractionBits
  if field = f.infiniteField then
    if fraction = 0 then .infinite negative else .nan
  else if field = 0 then .finite negative fraction f.minExponent
  else .finite negative (Nat.pow 2 f.fractionBits + fraction) (f.minExponent + (field - 1 : Nat))

/-- The quotient of two numbers, rounded to the nearest whole number; a half goes to the even
neighbour. -/
def roundHalfEven (num den : Nat) : Nat :=
  let q := num / den
  let r := num % den
  if 2 * r < den then q
  else if den < 2 * r then q + 1
  else if q % 2 = 0 then q else q + 1

/-- Multiplies a quotient by a power of two. -/
def scale (num den : Nat) (e : Int) : Nat × Nat :=
  if 0 ≤ e then (num * Nat.pow 2 e.toNat, den) else (num, den * Nat.pow 2 (-e).toNat)

/-- The bits of the number nearest to a quotient. -/
def nearest (f : BinaryFormat) (num den : Nat) : Nat :=
  if num = 0 then 0
  else
    -- The unit of the result: the quotient has `precision` bits in it, or one more.
    let guess : Int := (num.log2 : Int) - (den.log2 : Int) - f.precision
    let unit := max guess f.minExponent
    let (n, d) := scale num den (-unit)
    let unit := if n / d < Nat.pow 2 f.precision then unit else unit + 1
    let (n, d) := scale num den (-unit)
    let significand := roundHalfEven n d
    let bits :=
      if significand < Nat.pow 2 f.fractionBits then significand
      else (unit - f.minExponent).toNat * Nat.pow 2 f.fractionBits + significand
    min bits f.infinityBits

end BinaryFormat

end Hotswap.Decimal
