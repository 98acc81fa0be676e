import Hotswap.Decimal.Binary

/-!
# Reading numbers

Integers and floating-point numbers as people write them on a command line and in string operands.
An integer is digits after at most one sign. A floating-point number is digits with at most one
point among or around them, then at most one exponent; or one of the words `inf`, `infinity` and
`nan` in any letter case; each after at most one sign. No blanks are allowed. The nearest number of
the format is taken.
-/

namespace Hotswap.Decimal

/-- The value of a decimal digit. -/
def digitValue (c : Char) : Nat := c.toNat - '0'.toNat

/-- The number written by digits, the most significant one first. -/
def natOfDigits (digits : List Char) : Nat := digits.foldl (fun n c => 10 * n + digitValue c) 0

/-- Takes a sign off the front of a text. -/
def takeSign : List Char → Bool × List Char
  | '-' :: rest => (true, rest)
  | '+' :: rest => (false, rest)
  | cs => (false, cs)

/-- Reads digits after at most one sign. -/
def readInt? (cs : List Char) : Option Int :=
  let (negative, digits) := takeSign cs
  if digits.isEmpty || !digits.all Char.isDigit then none
  else some (if negative then -(natOfDigits digits : Int) else natOfDigits digits)

/-- Reads an integer that fits in 64 bits. -/
def readInt64? (s : String) : Option Int64 :=
  match readInt? s.toList with
  | some n =>
    if Int64.minValue.toInt ≤ n ∧ n ≤ Int64.maxValue.toInt then some (Int64.ofInt n) else none
  | none => none

/-- A floating-point number as it is written. -/
inductive Written where
  /-- The number `digits * 10 ^ exponent`. -/
  | finite (negative : Bool) (digits : Nat) (exponent : Int)
  /-- An infinity. -/
  | infinite (negative : Bool)
  /-- Not a number. -/
  | nan (negative : Bool)
  deriving DecidableEq, Repr

/-- Reads what follows the digits: nothing, or an exponent. -/
def readExponent? : List Char → Option Int
  | [] => some 0
  | e :: rest => if e = 'e' ∨ e = 'E' then readInt? rest else none

/-- Reads digits with at most one point, then at most one exponent. -/
def readUnsigned? (cs : List Char) : Option (Nat × Int) :=
  let whole := cs.takeWhile Char.isDigit
  let rest := cs.dropWhile Char.isDigit
  let (fraction, rest) := match rest with
    | '.' :: rest => (rest.takeWhile Char.isDigit, rest.dropWhile Char.isDigit)
    | rest => ([], rest)
  if whole.isEmpty && fraction.isEmpty then none
  else (readExponent? rest).map fun e => (natOfDigits (whole ++ fraction), e - fraction.length)

/-- Reads a floating-point number. -/
def Written.read? (s : String) : Option Written :=
  let (negative, cs) := takeSign s.toList
  match readUnsigned? cs with
  | some (digits, exponent) => some (.finite negative digits exponent)
  | none =>
    let word := cs.map Char.toLower
    if word = "inf".toList ∨ word = "infinity".toList then some (.infinite negative)
    else if word = "nan".toList then some (.nan negative)
    else none

/-- The bits of the number of a format nearest to what is written. Beyond four hundred places on
either side of the point every format has overflowed or vanished. -/
def Written.bits (f : BinaryFormat) : Written → Nat
  | .infinite negative => f.infinityBits + if negative then f.signBit else 0
  | .nan negative =>
    f.infinityBits + Nat.pow 2 (f.fractionBits - 1) + if negative then f.signBit else 0
  | .finite negative digits exponent =>
    let places : Int := (Nat.toDigits 10 digits).length
    let magnitude :=
      if digits = 0 then 0
      else if 400 < places + exponent then f.infinityBits
      else if places + exponent < -400 then 0
      else f.nearest (digits * Nat.pow 10 exponent.toNat) (Nat.pow 10 (-exponent).toNat)
    magnitude + if negative then f.signBit else 0

/-- Reads a number of 64 bits. -/
def readFloat? (s : String) : Option Float :=
  (Written.read? s).map fun w => Float.ofBits (UInt64.ofNat (w.bits .double))

/-- Reads a number of 32 bits. -/
def readFloat32? (s : String) : Option Float32 :=
  (Written.read? s).map fun w => Float32.ofBits (UInt32.ofNat (w.bits .single))

end Hotswap.Decimal
