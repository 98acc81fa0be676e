import Hotswap.Arithmetic.Float
import Hotswap.Error
import Hotswap.Value

/-!
# Arithmetic on values

The operators of the instruction set. Two integers are computed with the narrower of their widths,
where an integer of 8 bits counts as one of 32. Two floating-point numbers are computed with the
narrower of theirs, and an integer beside a floating-point number becomes one of its width. Unless
an operator is a checked one, integers wrap around.

A value that an operator does not take gives `Error.typeMismatch` with the operator and the names of
both types.
-/

namespace Hotswap

/-- A binary operator. -/
inductive BinaryOp where
  /-- Addition. -/
  | add
  /-- Subtraction. -/
  | sub
  /-- Multiplication. -/
  | mul
  /-- Division. -/
  | div
  /-- The remainder of a division. -/
  | rem
  /-- Bitwise conjunction. -/
  | and
  /-- Bitwise disjunction. -/
  | or
  /-- Bitwise exclusive disjunction. -/
  | xor
  /-- Shift to the left. -/
  | shl
  /-- Shift to the right that keeps the sign. -/
  | shr
  /-- Shift to the right that brings in zeros. -/
  | shrUn
  deriving DecidableEq, Repr

/-- The symbol of an operator, as messages give it. -/
def BinaryOp.symbol : BinaryOp → String
  | .add => "+"
  | .sub => "-"
  | .mul => "*"
  | .div => "/"
  | .rem => "%"
  | .and => "&"
  | .or => "|"
  | .xor => "^"
  | .shl => "<<"
  | .shr => ">>"
  | .shrUn => ">>>"

/-- Whether an operator is a shift. -/
def BinaryOp.isShift : BinaryOp → Bool
  | .shl | .shr | .shrUn => true
  | _ => false

/-- The error of an operator that does not take two values. -/
def mismatch (operator : String) (a b : Value) : Error :=
  .typeMismatch operator a.typeName b.typeName

/-! ## Numbers -/

/-- A number that arithmetic is done with. -/
inductive Num where
  /-- An integer of 32 bits. -/
  | int32 (n : Int32)
  /-- An integer of 64 bits. -/
  | int64 (n : Int64)
  /-- A floating-point number of 32 bits. -/
  | float32 (x : Float32)
  /-- A floating-point number of 64 bits. -/
  | float64 (x : Float)
  deriving DecidableEq

/-- Two numbers of one width. -/
inductive NumPair where
  /-- Integers of 32 bits. -/
  | int32 (a b : Int32)
  /-- Integers of 64 bits. -/
  | int64 (a b : Int64)
  /-- Floating-point numbers of 32 bits. -/
  | float32 (a b : Float32)
  /-- Floating-point numbers of 64 bits. -/
  | float64 (a b : Float)
  deriving DecidableEq

/-- The number of a value. -/
def Num.ofValue? : Value → Option Num
  | .int8 n => some (.int32 n.toInt32)
  | .int32 n => some (.int32 n)
  | .int64 n => some (.int64 n)
  | .float32 x => some (.float32 x)
  | .float64 x => some (.float64 x)
  | _ => none

/-- Two numbers brought to one width. -/
def NumPair.of : Num → Num → NumPair
  | .int32 a, .int32 b => .int32 a b
  | .int64 a, .int64 b => .int64 a b
  | .int32 a, .int64 b => .int32 a b.toInt32
  | .int64 a, .int32 b => .int32 a.toInt32 b
  | .float32 a, .float32 b => .float32 a b
  | .float64 a, .float64 b => .float64 a b
  | .float32 a, .float64 b => .float32 a b.toFloat32
  | .float64 a, .float32 b => .float32 a.toFloat32 b
  | .int32 a, .float32 b => .float32 a.toInt64.toFloat32 b
  | .int64 a, .float32 b => .float32 a.toFloat32 b
  | .float32 a, .int32 b => .float32 a b.toInt64.toFloat32
  | .float32 a, .int64 b => .float32 a b.toFloat32
  | .int32 a, .float64 b => .float64 a.toInt64.toFloat b
  | .int64 a, .float64 b => .float64 a.toFloat b
  | .float64 a, .int32 b => .float64 a b.toInt64.toFloat
  | .float64 a, .int64 b => .float64 a b.toFloat

/-- The numbers of two values, brought to one width. -/
def NumPair.ofValues? (a b : Value) : Option NumPair :=
  match Num.ofValue? a, Num.ofValue? b with
  | some x, some y => some (.of x y)
  | _, _ => none

/-! ## Integers -/

/-- The quotient or the remainder of two integers of 32 bits. -/
def divide32 (op : BinaryOp) (x y : Int32) (result : Int32) : Except Error Int32 :=
  if y = 0 then .error .divideByZero
  else if x = Int32.minValue ∧ y = -1 then .error (.overflow op.symbol)
  else .ok result

/-- The quotient or the remainder of two integers of 64 bits. -/
def divide64 (op : BinaryOp) (x y : Int64) (result : Int64) : Except Error Int64 :=
  if y = 0 then .error .divideByZero
  else if x = Int64.minValue ∧ y = -1 then .error (.overflow op.symbol)
  else .ok result

/-- An operator on integers of 32 bits. Shifts go by the amount modulo 32. -/
def intOp32 (op : BinaryOp) (x y : Int32) : Except Error Int32 :=
  match op with
  | .add => .ok (x + y)
  | .sub => .ok (x - y)
  | .mul => .ok (x * y)
  | .div => divide32 op x y (x / y)
  | .rem => divide32 op x y (x % y)
  | .and => .ok (x &&& y)
  | .or => .ok (x ||| y)
  | .xor => .ok (x ^^^ y)
  | .shl => .ok (x <<< y)
  | .shr => .ok (x >>> y)
  | .shrUn => .ok (x.toUInt32 >>> y.toUInt32).toInt32

/-- An operator on integers of 64 bits. Shifts go by the amount modulo 64. -/
def intOp64 (op : BinaryOp) (x y : Int64) : Except Error Int64 :=
  match op with
  | .add => .ok (x + y)
  | .sub => .ok (x - y)
  | .mul => .ok (x * y)
  | .div => divide64 op x y (x / y)
  | .rem => divide64 op x y (x % y)
  | .and => .ok (x &&& y)
  | .or => .ok (x ||| y)
  | .xor => .ok (x ^^^ y)
  | .shl => .ok (x <<< y)
  | .shr => .ok (x >>> y)
  | .shrUn => .ok (x.toUInt64 >>> y.toUInt64).toInt64

/-- An operator on floating-point numbers, if it is one of arithmetic. -/
def floatOp? (op : BinaryOp) (x y : Float) : Option Float :=
  match op with
  | .add => some (x + y)
  | .sub => some (x - y)
  | .mul => some (x * y)
  | .div => some (x / y)
  | .rem => some (Floating.remainder x y)
  | _ => none

/-! ## Operators -/

/-- An operator on two numbers, with integers that wrap around. Floating-point numbers of 32 bits
are computed with 64 and then narrowed. -/
def arith (op : BinaryOp) (a b : Value) : Except Error Value :=
  match NumPair.ofValues? a b with
  | none => .error (mismatch op.symbol a b)
  | some (.int32 x y) => (intOp32 op x y).map .int32
  | some (.int64 x y) => (intOp64 op x y).map .int64
  | some (.float32 x y) =>
    match floatOp? op x.toFloat y.toFloat with
    | some r => .ok (.float32 r.toFloat32)
    | none => .error (mismatch op.symbol a b)
  | some (.float64 x y) =>
    match floatOp? op x y with
    | some r => .ok (.float64 r)
    | none => .error (mismatch op.symbol a b)

/-- Addition, which joins the texts of two values when one of them is a string. -/
def add (a b : Value) : Except Error Value :=
  match a, b with
  | .string _, _ | _, .string _ => .ok (.string (a.render ++ b.render))
  | _, _ => arith .add a b

/-- An integer or a truth value as a number. -/
def bits? : Value → Option Num
  | .bool b => some (.int32 (if b then 1 else 0))
  | .int8 n => some (.int32 n.toInt32)
  | .int32 n => some (.int32 n)
  | .int64 n => some (.int64 n)
  | _ => none

/-- A bitwise operator or a shift. Truth values count as zero and one, and two of them stay truth
values under conjunction and disjunction. The amount of a shift does not decide its width. -/
def bitwise (op : BinaryOp) (a b : Value) : Except Error Value :=
  match a, b with
  | .bool x, .bool y =>
    match op with
    | .and => .ok (.bool (x && y))
    | .or => .ok (.bool (x || y))
    | .xor => .ok (.bool (x ^^ y))
    | _ => .error (mismatch op.symbol a b)
  | _, _ =>
    match bits? a, bits? b with
    | some (.int32 x), some (.int32 y) => (intOp32 op x y).map .int32
    | some (.int64 x), some (.int64 y) => (intOp64 op x y).map .int64
    | some (.int32 x), some (.int64 y) => (intOp32 op x y.toInt32).map .int32
    | some (.int64 x), some (.int32 y) =>
      if op.isShift then (intOp64 op x y.toInt64).map .int64
      else (intOp32 op x.toInt32 y).map .int32
    | _, _ => .error (mismatch op.symbol a b)

/-- The exact result of an operator that has a checked form. -/
def exactResult? (op : BinaryOp) (x y : Int) : Option Int :=
  match op with
  | .add => some (x + y)
  | .sub => some (x - y)
  | .mul => some (x * y)
  | _ => none

/-- The range of the integers of a width, with a sign or without. -/
def inWidth (width : Nat) (unsigned : Bool) (n : Int) : Bool :=
  let bound : Int := Nat.pow 2 (if unsigned then width else width - 1)
  decide ((if unsigned then 0 else -bound) ≤ n) && decide (n < bound)

/-- Addition, subtraction or multiplication that fails when the exact result does not fit. With
`unsigned`, integers are read without their sign. Floating-point numbers always fit. -/
def checked (op : BinaryOp) (unsigned : Bool) (a b : Value) : Except Error Value :=
  let finish (width : Nat) (make : Int → Value) (x y : Int) : Except Error Value :=
    match exactResult? op x y with
    | none => .error (mismatch op.symbol a b)
    | some r =>
      if inWidth width unsigned r then .ok (make r) else .error (.overflow op.symbol)
  match NumPair.ofValues? a b with
  | none => .error (mismatch op.symbol a b)
  | some (.int32 x y) =>
    let read (n : Int32) : Int := if unsigned then n.toUInt32.toNat else n.toInt
    finish 32 (fun r => .int32 (Int32.ofInt r)) (read x) (read y)
  | some (.int64 x y) =>
    let read (n : Int64) : Int := if unsigned then n.toUInt64.toNat else n.toInt
    finish 64 (fun r => .int64 (Int64.ofInt r)) (read x) (read y)
  | some _ => arith op a b

/-- Division of integers that are read without their sign; the remainder for `.rem` and the quotient
for any other operator. -/
def divideUnsigned (op : BinaryOp) (a b : Value) : Except Error Value :=
  match NumPair.ofValues? a b with
  | none => .error (mismatch op.symbol a b)
  | some (.int32 x y) =>
    if y = 0 then .error .divideByZero
    else
      let (x, y) := (x.toUInt32, y.toUInt32)
      .ok (.int32 (if op = .rem then x % y else x / y).toInt32)
  | some (.int64 x y) =>
    if y = 0 then .error .divideByZero
    else
      let (x, y) := (x.toUInt64, y.toUInt64)
      .ok (.int64 (if op = .rem then x % y else x / y).toInt64)
  | some _ => arith op a b

/-- The opposite of a number. -/
def negate (v : Value) : Except Error Value :=
  match Num.ofValue? v with
  | some (.int32 n) => .ok (.int32 (-n))
  | some (.int64 n) => .ok (.int64 (-n))
  | some (.float32 x) => .ok (.float32 (-x))
  | some (.float64 x) => .ok (.float64 (-x))
  | none => .error (mismatch "-" v .null)

/-- The bitwise complement of an integer, and the negation of a truth value. -/
def complement (v : Value) : Except Error Value :=
  match v, Num.ofValue? v with
  | .bool b, _ => .ok (.bool (!b))
  | _, some (.int32 n) => .ok (.int32 (~~~n))
  | _, some (.int64 n) => .ok (.int64 (~~~n))
  | _, _ => .error (mismatch "~" v .null)

/-! ## Comparison -/

/-- The order of two floating-point numbers, if they have one. -/
def floatOrder? (x y : Float) : Option Ordering :=
  if x < y then some .lt else if y < x then some .gt else if x == y then some .eq else none

/-- The order of two values. Integers and truth values are compared exactly, and as floating-point
numbers beside one; there what is not a number has no order. -/
def compareValues (operator : String) (a b : Value) : Except Error (Option Ordering) :=
  match a.toInt64?, b.toInt64? with
  | some x, some y => .ok (some (compare x.toInt y.toInt))
  | _, _ =>
    match a.toFloat?, b.toFloat? with
    | some x, some y => .ok (floatOrder? x y)
    | _, _ => .error (mismatch operator a b)

/-- Whether a value is less than another. -/
def less (a b : Value) : Except Error Bool := (compareValues "<" a b).map (· == some .lt)

/-- Whether a value is greater than another. -/
def greater (a b : Value) : Except Error Bool := (compareValues ">" a b).map (· == some .gt)

/-- Whether two values are equal. Strings are compared with strings; references are not taken. -/
def equal (a b : Value) : Except Error Bool :=
  match a, b with
  | .string x, .string y => .ok (x == y)
  | .bool x, .bool y => .ok (x == y)
  | _, _ => (compareValues "==" a b).map (· == some .eq)

end Hotswap
