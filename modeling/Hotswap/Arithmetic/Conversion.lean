import Hotswap.Arithmetic

/-!
# Numeric conversions

The conversions of the instruction set. Integers of fewer than 32 bits are kept in 32, except that a
signed integer of 8 bits has a tag of its own; integers of the native width have 64. An unchecked
conversion drops high bits, and the integer part of a floating-point number is first brought into
the range of 64 bits. A checked conversion fails when the source does not fit the target.
-/

namespace Hotswap

/-- The target of a conversion. -/
inductive Conversion where
  /-- A signed integer of 8 bits. -/
  | i1
  /-- A signed integer of 16 bits. -/
  | i2
  /-- A signed integer of 32 bits. -/
  | i4
  /-- A signed integer of 64 bits. -/
  | i8
  /-- An unsigned integer of 8 bits. -/
  | u1
  /-- An unsigned integer of 16 bits. -/
  | u2
  /-- An unsigned integer of 32 bits. -/
  | u4
  /-- An unsigned integer of 64 bits. -/
  | u8
  /-- A signed integer of the native width. -/
  | i
  /-- An unsigned integer of the native width. -/
  | u
  /-- A floating-point number of 32 bits. -/
  | r4
  /-- A floating-point number of 64 bits. -/
  | r8
  /-- A floating-point number of 64 bits, from an integer without its sign. -/
  | rUn
  deriving DecidableEq, Repr

namespace Conversion

/-- The name of a conversion, as messages give it. -/
def name : Conversion → String
  | .i1 => "conv.i1"
  | .i2 => "conv.i2"
  | .i4 => "conv.i4"
  | .i8 => "conv.i8"
  | .u1 => "conv.u1"
  | .u2 => "conv.u2"
  | .u4 => "conv.u4"
  | .u8 => "conv.u8"
  | .i => "conv.i"
  | .u => "conv.u"
  | .r4 => "conv.r4"
  | .r8 => "conv.r8"
  | .rUn => "conv.r.un"

/-- The width and the lack of a sign of an integer target. -/
def integerRange? : Conversion → Option (Nat × Bool)
  | .i1 => some (8, false)
  | .i2 => some (16, false)
  | .i4 => some (32, false)
  | .i8 | .i => some (64, false)
  | .u1 => some (8, true)
  | .u2 => some (16, true)
  | .u4 => some (32, true)
  | .u8 | .u => some (64, true)
  | .r4 | .r8 | .rUn => none

/-- Whether an integer fits the target; every integer fits a floating-point one. -/
def fits (c : Conversion) (n : Int) : Bool :=
  match c.integerRange? with
  | some (width, unsigned) => inWidth width unsigned n
  | none => true

end Conversion

/-- The floating-point number that a value carries. -/
def carriedFloat? : Value → Option Float
  | .float32 x => some x.toFloat
  | .float64 x => some x
  | _ => none

/-- Converts an integer of 64 bits, or a floating-point number that comes with its integer part. -/
def convertNumber (c : Conversion) (float : Option Float) (n : Int64) : Value :=
  match c with
  | .i1 => .int8 n.toInt8
  | .i2 => .int32 n.toInt16.toInt32
  | .i4 | .u4 => .int32 n.toInt32
  | .u1 => .int32 n.toUInt64.toUInt8.toUInt32.toInt32
  | .u2 => .int32 n.toUInt64.toUInt16.toUInt32.toInt32
  | .i8 | .u8 | .i | .u => .int64 n
  | .r4 => .float32 (float.getD n.toFloat).toFloat32
  | .r8 => .float64 (float.getD n.toFloat)
  | .rUn => .float64 (float.getD n.toUInt64.toFloat)

/-- Converts a number or a truth value. -/
def convert (c : Conversion) (v : Value) : Except Error Value :=
  match carriedFloat? v, v.toInt64? with
  | some x, _ => .ok (convertNumber c (some x) (Floating.toInt64Saturating x))
  | none, some n => .ok (convertNumber c none n)
  | none, none => .error (mismatch c.name v .null)

/-- The integer that a checked conversion starts from. With `unsigned`, integers of 32 and of 64
bits are read without their sign. -/
def sourceInteger (c : Conversion) (unsigned : Bool) (v : Value) : Except Error Int :=
  match carriedFloat? v with
  | some x =>
    if Floating.isFinite x then .ok (Floating.truncate (-(Nat.pow 2 127)) (Nat.pow 2 127 - 1) x)
    else .error (.overflow c.name)
  | none =>
    match v, unsigned with
    | .int32 n, true => .ok n.toUInt32.toNat
    | .int64 n, true => .ok n.toUInt64.toNat
    | _, _ =>
      match v.toInt64? with
      | some n => .ok n.toInt
      | none => .error (mismatch c.name v .null)

/-- Converts a number or a truth value if it fits the target. -/
def convertChecked (c : Conversion) (unsigned : Bool) (v : Value) : Except Error Value := do
  let n ← sourceInteger c unsigned v
  if c.fits n then return convertNumber c none (Int64.ofInt n) else .error (.overflow c.name)

end Hotswap
