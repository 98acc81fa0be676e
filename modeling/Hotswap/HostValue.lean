import Hotswap.Heap

/-!
# Values of the host

Values cross between the machine and the host in both directions. Going out, the host asks for a
`HostType`, and a value that does not have it is refused; `HostType.view` gives the value as the
host sees it, so that an integer of 8 bits asked for as one of 32 has been widened. Coming in, a
`HostValue` that has a tag of its own becomes that value, and any other becomes an object that
carries it as a payload.
-/

namespace Hotswap

/-- A type that the host asks for. -/
inductive HostType where
  /-- A truth value. -/
  | bool
  /-- An integer of 8 bits. -/
  | int8
  /-- An integer of 32 bits. -/
  | int32
  /-- An integer of 64 bits. -/
  | int64
  /-- A floating-point number of 32 bits. -/
  | float32
  /-- A floating-point number of 64 bits. -/
  | float64
  /-- A string. -/
  | string
  /-- An object. -/
  | object
  /-- An array. -/
  | array
  /-- A delegate. -/
  | delegate
  /-- Any value. -/
  | any
  /-- Nothing; every value is dropped. -/
  | unit
  /-- A value of a type, or null. -/
  | optional (type : HostType)
  deriving DecidableEq, Repr

/-- The error of a value that does not have the type asked for. -/
def castError (v : Value) (target : String) : Error := .invalidCast v.typeName target

/-- A value as the host sees it under a type. -/
def HostType.view : HostType → Value → Except Error Value
  | .bool, v@(.bool _) => .ok v
  | .bool, v => .error (castError v "System.Boolean")
  | .int8, v@(.int8 _) => .ok v
  | .int8, v => .error (castError v "System.SByte")
  | .int32, v@(.int32 _) => .ok v
  | .int32, .int8 n => .ok (.int32 n.toInt32)
  | .int32, .bool b => .ok (.int32 (if b then 1 else 0))
  | .int32, v => .error (castError v "System.Int32")
  | .int64, v =>
    match v.toInt64? with
    | some n => .ok (.int64 n)
    | none => .error (castError v "System.Int64")
  | .float32, v@(.float32 _) => .ok v
  | .float32, v => .error (castError v "System.Single")
  | .float64, v@(.float64 _) => .ok v
  | .float64, v => .error (castError v "System.Double")
  | .string, v@(.string _) => .ok v
  | .string, v => .error (castError v "System.String")
  | .object, v@(.object _) => .ok v
  | .object, v => .error (castError v "System.Object")
  | .array, v@(.array _) => .ok v
  | .array, v => .error (castError v "System.Array")
  | .delegate, v@(.delegate _) => .ok v
  | .delegate, v => .error (castError v "System.Delegate")
  | .any, v => .ok v
  | .unit, _ => .ok .null
  | .optional _, .null => .ok .null
  | .optional t, v => t.view v

/-- A value that the host hands over. -/
inductive HostValue where
  /-- A value of the machine. -/
  | value (v : Value)
  /-- An integer of 8 bits. -/
  | int8 (n : Int8)
  /-- An integer of 32 bits. -/
  | int32 (n : Int32)
  /-- An integer of 64 bits. -/
  | int64 (n : Int64)
  /-- A floating-point number of 32 bits. -/
  | float32 (x : Float32)
  /-- A floating-point number of 64 bits. -/
  | float64 (x : Float)
  /-- A truth value. -/
  | bool (b : Bool)
  /-- A string. -/
  | string (s : String)
  /-- A value without a tag of its own, which is carried along. -/
  | carried (payload : Payload)

/-- The class of the objects that carry a payload of the host. -/
def payloadClass : TypeName := .plain "System.Object"

/-- The value that stands for a value of the host. -/
def HostValue.toValue : HostValue → Heap → Value × Heap
  | .value v, h => (v, h)
  | .int8 n, h => (.int8 n, h)
  | .int32 n, h => (.int32 n, h)
  | .int64 n, h => (.int64 n, h)
  | .float32 x, h => (.float32 x, h)
  | .float64 x, h => (.float64 x, h)
  | .bool b, h => (.bool b, h)
  | .string s, h => (.string s, h)
  | .carried payload, h =>
    let (r, h) := h.newObject payloadClass ⟨∅, some payload⟩
    (.object r, h)

end Hotswap
