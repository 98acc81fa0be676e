import Hotswap.Decimal.Style
import Hotswap.Signature
import Hotswap.Text.Quoted

/-!
# Values

Every operand on an evaluation stack, in a local, in an argument or in a field is a `Value`.
Numbers, truth values, strings and type handles are carried whole. Objects, arrays and delegates are
references: an address in the heap and, for objects and arrays, the type that they were made with,
which never changes. So the name of a value's type and its text need no heap.
-/

namespace Hotswap

/-- A reference to an object. -/
structure ObjectRef where
  /-- Where the object is. -/
  address : Nat
  /-- The closed class of the object. -/
  type : TypeName
  deriving DecidableEq, Repr

/-- A reference to an array. -/
structure ArrayRef where
  /-- Where the array is. -/
  address : Nat
  /-- The closed type of its items. -/
  element : TypeName
  deriving DecidableEq, Repr

/-- A value. -/
inductive Value where
  /-- The reference to nothing. -/
  | null
  /-- A truth value. -/
  | bool (b : Bool)
  /-- An integer of 8 bits. -/
  | int8 (n : Int8)
  /-- An integer of 32 bits. -/
  | int32 (n : Int32)
  /-- An integer of 64 bits. -/
  | int64 (n : Int64)
  /-- A floating-point number of 32 bits. -/
  | float32 (x : Float32)
  /-- A floating-point number of 64 bits. -/
  | float64 (x : Float)
  /-- A string. -/
  | string (s : String)
  /-- A reference to an object. -/
  | object (ref : ObjectRef)
  /-- A reference to an array. -/
  | array (ref : ArrayRef)
  /-- A reference to a delegate, by its address. -/
  | delegate (address : Nat)
  /-- A handle of a type. -/
  | type (handle : TypeName)
  deriving DecidableEq, Inhabited

/-- The tag of a value; every reference has the last one. -/
inductive ValueKind where
  /-- An integer of 32 bits. -/
  | int32
  /-- An integer of 64 bits. -/
  | int64
  /-- An integer of 8 bits. -/
  | int8
  /-- A floating-point number of 32 bits. -/
  | float32
  /-- A floating-point number of 64 bits. -/
  | float64
  /-- A truth value. -/
  | bool
  /-- A string. -/
  | string
  /-- A reference or a handle. -/
  | object
  deriving DecidableEq, Repr

/-- The name of a tag. -/
def ValueKind.name : ValueKind → String
  | .int32 => "Int32"
  | .int64 => "Int64"
  | .int8 => "Int8"
  | .float32 => "Float32"
  | .float64 => "Float64"
  | .bool => "Bool"
  | .string => "String"
  | .object => "Object"

namespace Value

/-- The tag of a value. -/
def kind : Value → ValueKind
  | .bool _ => .bool
  | .int8 _ => .int8
  | .int32 _ => .int32
  | .int64 _ => .int64
  | .float32 _ => .float32
  | .float64 _ => .float64
  | .string _ => .string
  | .null | .object _ | .array _ | .delegate _ | .type _ => .object

/-- The name of a value's type, as messages give it. -/
def typeName : Value → String
  | .null => "null"
  | .bool _ => "System.Boolean"
  | .int8 _ => "System.SByte"
  | .int32 _ => "System.Int32"
  | .int64 _ => "System.Int64"
  | .float32 _ => "System.Single"
  | .float64 _ => "System.Double"
  | .string _ => "System.String"
  | .object ref => ref.type.render
  | .array ref => ref.element.arrayOf.render
  | .delegate _ => "System.Delegate"
  | .type _ => "System.RuntimeTypeHandle"

/-- The text of a value; nothing for null, and the type for a reference. -/
def render : Value → String
  | .null => ""
  | .bool b => if b then "True" else "False"
  | .int8 n => toString n.toInt
  | .int32 n => toString n.toInt
  | .int64 n => toString n.toInt
  | .float32 x => Decimal.FloatStyle.plain.render32 x
  | .float64 x => Decimal.FloatStyle.plain.render64 x
  | .string s => s
  | .type handle => handle.render
  | v => v.typeName

/-- Whether a value is null. -/
def isNull : Value → Bool
  | .null => true
  | _ => false

/-- Whether a value is an integer. -/
def isInteger : Value → Bool
  | .int8 _ | .int32 _ | .int64 _ => true
  | _ => false

/-- Whether a value is a floating-point number. -/
def isFloat : Value → Bool
  | .float32 _ | .float64 _ => true
  | _ => false

/-- The integer of a value; a truth value counts as zero or one. -/
def toInt64? : Value → Option Int64
  | .bool b => some (if b then 1 else 0)
  | .int8 n => some n.toInt64
  | .int32 n => some n.toInt64
  | .int64 n => some n
  | _ => none

/-- The integer of a value that is an integer and not a truth value. -/
def integer? (v : Value) : Option Int64 := if v.isInteger then v.toInt64? else none

/-- The number of a value, as a floating-point number of 64 bits. -/
def toFloat? : Value → Option Float
  | .float32 x => some x.toFloat
  | .float64 x => some x
  | v => v.toInt64?.map (·.toFloat)

/-- The string of a value. -/
def toString? : Value → Option String
  | .string s => some s
  | _ => none

/-- Whether two values are the same: the same content for what is carried whole, the same place for
references. -/
def isSame : Value → Value → Bool
  | .null, .null => true
  | .bool a, .bool b => a == b
  | .int8 a, .int8 b => a == b
  | .int32 a, .int32 b => a == b
  | .int64 a, .int64 b => a == b
  | .float32 a, .float32 b => a == b
  | .float64 a, .float64 b => a == b
  | .string a, .string b => a == b
  | .object a, .object b => a.address == b.address
  | .array a, .array b => a.address == b.address
  | .delegate a, .delegate b => a == b
  | .type a, .type b => decide (a = b)
  | _, _ => false

/-- Whether a value is one that branches take as false: null, the truth value false, and zero. -/
def isFalsy : Value → Bool
  | .null => true
  | .bool b => !b
  | v => v.integer? == some 0

end Value

end Hotswap
