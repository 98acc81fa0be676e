import Hotswap.Arithmetic.Float
import Hotswap.Symbols
import Hotswap.Text.Replace

/-!
# The core library

The symbols of the `System` namespace that every host has: the primitive types, the families of
delegates, and the methods of objects, strings and numbers that patched code uses most.

A constructor of the host is called in two ways. For a new object it has no receiver and gives the
object; when the constructor of a derived class calls it, the object is there already.
-/

namespace Hotswap.CoreLibrary

/-! ## Types -/

/-- A class that is derived from another. -/
def derived (name base : String) : TypeDefinition :=
  { name, kind := .classType, base := some (.plain base) }

/-- A value type with a fixed default. -/
def valueType (name : String) (initial : Value) (base : Option TypeName) : TypeDefinition :=
  { name, kind := .valueType, base, initial := some (pure initial) }

/-- The classes, and the value types without a value. -/
def classes : List TypeDefinition :=
  [{ name := "System.Object", kind := .classType },
    derived "System.ValueType" "System.Object",
    derived "System.String" "System.Object",
    derived "System.Array" "System.Object",
    derived "System.Exception" "System.Object",
    { name := "System.Math", kind := .classType },
    derived "System.Type" "System.Object",
    derived "System.Delegate" "System.Object",
    derived "System.MulticastDelegate" "System.Delegate",
    valueType "System.Void" .null none,
    valueType "System.RuntimeTypeHandle" .null none]

/-- The primitive types with their zeros. -/
def primitives : List (String × Value) :=
  [("System.Boolean", .bool false),
    ("System.SByte", .int8 0),
    ("System.Byte", .int32 0),
    ("System.Int16", .int32 0),
    ("System.UInt16", .int32 0),
    ("System.Char", .int32 0),
    ("System.Int32", .int32 0),
    ("System.UInt32", .int32 0),
    ("System.Int64", .int64 0),
    ("System.UInt64", .int64 0),
    ("System.IntPtr", .int64 0),
    ("System.UIntPtr", .int64 0),
    ("System.Single", .float32 0),
    ("System.Double", .float64 0)]

/-- The names of a family of generic types, by the number of their parameters. -/
def family (name : String) (most : Nat) : List String :=
  (List.range most).map fun n => name ++ "\x60" ++ toString (n + 1)

/-- The types of delegates. -/
def delegates : List String :=
  "System.Action" :: family "System.Action" 16 ++ family "System.Func" 17 ++
    ["System.Predicate\x601", "System.Comparison\x601"]

/-- All types. -/
def types : List TypeDefinition :=
  classes ++
    (primitives.map fun (name, zero) => valueType name zero (some (.plain "System.ValueType"))) ++
    delegates.map fun name => { name, kind := .delegate }

/-! ## Objects -/

/-- The constructor of an object. -/
def newObject : HostCode := fun c =>
  match c.receiver with
  | .null => Host.access fun m => m.newObject (.plain "System.Object")
  | _ => return .null

/-- The text of the receiver. -/
def toText : HostCode := fun c => return .string c.receiver.render

/-- Whether the receiver and the argument are the same. -/
def equals : HostCode := fun c => do
  let other ← c.arg 0
  return .bool (c.receiver.isSame other)

/-- The constructor of an exception with a message. -/
def newException : HostCode := fun c => do
  let message ← c.arg 0
  match c.receiver with
  | .object r =>
    Host.access fun m => (.null, { m with heap := m.heap.setField r "message" message })
  | _ => Host.access fun m =>
    let (r, heap) := m.heap.newObject (.plain "System.Exception")
      { fields := (∅ : Table String Value).insert "message" message }
    (.object r, { m with heap })

/-! ## Strings -/

/-- The texts of values, one after another. -/
def joined (vs : List Value) : Value := .string (String.join (vs.map Value.render))

/-- The texts of all arguments, one after another. -/
def concat : HostCode := fun c => return joined c.args

/-- The texts of the items of an array, one after another. -/
def concatItems : HostCode := fun c => do
  match ← c.argAs .array 0 with
  | .array r => return joined ((← Host.memory).heap.items r).toList
  | v => .fail (castError v "System.Array")

/-- The length of a text in units of 16 bits. -/
def units16 (s : String) : Nat :=
  s.toList.foldr (fun c n => (if c.toNat < 0x10000 then 1 else 2) + n) 0

/-- The length of the receiver. -/
def length : HostCode := fun c => do
  match ← c.receiverAs .string with
  | .string s => return .int32 (Int32.ofNat (units16 s))
  | v => .fail (castError v "System.String")

/-- An argument that is a string or null. -/
def text? (c : HostCall) (index : Nat) : Except Error (Option String) := do
  return (← c.argAs (.optional .string) index).toString?

/-- Whether a string is null or empty. -/
def isNullOrEmpty : HostCode := fun c => do
  return .bool ((← text? c 0).all (· == ""))

/-- Whether two strings have the same characters. -/
def sameText : HostCode := fun c => do
  let a ← text? c 0
  let b ← text? c 1
  return .bool (a == b)

/-- Puts values into a template, one after another: each takes the place of its number between
braces. -/
def fillTemplate (template : String) (vs : List Value) : String :=
  vs.zipIdx.foldl (fun text (v, n) =>
    Text.replaceAll ("\x7b" ++ toString n ++ "\x7d") v.render text) template

/-- Puts the arguments into the template in front of them. -/
def format : HostCode := fun c => do
  match ← c.argAs .string 0 with
  | .string template => return .string (fillTemplate template c.args.tail)
  | v => .fail (castError v "System.String")

/-! ## Numbers -/

/-- An argument as an integer of 32 bits. -/
def intArg (c : HostCall) (index : Nat) : Except Error Int32 := do
  match ← c.argAs .int32 index with
  | .int32 n => return n
  | v => .error (castError v "System.Int32")

/-- An argument as a floating-point number. -/
def floatArg (c : HostCall) (index : Nat) : Except Error Float := do
  match (← c.arg index).toFloat? with
  | some x => return x
  | none =>
    .error (.native (c.signature.render ++ ": argument " ++ toString index ++ " is not numeric"))

/-- The magnitude of an integer. -/
def absolute : HostCode := fun c => do
  let n ← intArg c 0
  if n = Int32.minValue then .fail (.overflow "Math.Abs")
  else return .int32 (if n < 0 then -n else n)

/-- A function of two integers. -/
def ofInts (f : Int32 → Int32 → Int32) : HostCode := fun c => do
  let a ← intArg c 0
  let b ← intArg c 1
  return .int32 (f a b)

/-- A function of a floating-point number. -/
def ofFloat (f : Float → Float) : HostCode := fun c => do
  let x ← floatArg c 0
  return .float64 (f x)

/-- A function of two floating-point numbers. -/
def ofFloats (f : Float → Float → Float) : HostCode := fun c => do
  let x ← floatArg c 0
  let y ← floatArg c 1
  return .float64 (f x y)

/-! ## The module -/

/-- The methods with a receiver. -/
def instanceMethods : List (String × HostCode) :=
  [("System.Void System.Object::.ctor()", newObject),
    ("System.String System.Object::ToString()", toText),
    ("System.Boolean System.Object::Equals(System.Object)", equals),
    ("System.Void System.Exception::.ctor(System.String)", newException),
    ("System.Int32 System.String::get_Length()", length),
    ("System.String System.Boolean::ToString()", toText),
    ("System.String System.Int32::ToString()", toText),
    ("System.String System.Int64::ToString()", toText),
    ("System.String System.Single::ToString()", toText),
    ("System.String System.Double::ToString()", toText)]

/-- The methods without a receiver. -/
def staticMethods : List (String × HostCode) :=
  [("System.String System.String::Concat(System.Object)", concat),
    ("System.String System.String::Concat(System.Object,System.Object)", concat),
    ("System.String System.String::Concat(System.Object,System.Object,System.Object)", concat),
    ("System.String System.String::Concat(System.String,System.String)", concat),
    ("System.String System.String::Concat(System.String,System.String,System.String)", concat),
    ("System.String System.String::Concat(System.String,System.String,System.String,System.String)",
      concat),
    ("System.String System.String::Concat(System.String[])", concatItems),
    ("System.Boolean System.String::IsNullOrEmpty(System.String)", isNullOrEmpty),
    ("System.Boolean System.String::op_Equality(System.String,System.String)", sameText),
    ("System.String System.String::Format(System.String,System.Object)", format),
    ("System.String System.String::Format(System.String,System.Object,System.Object)", format),
    ("System.Int32 System.Math::Abs(System.Int32)", absolute),
    ("System.Int32 System.Math::Max(System.Int32,System.Int32)", ofInts max),
    ("System.Int32 System.Math::Min(System.Int32,System.Int32)", ofInts min),
    ("System.Double System.Math::Abs(System.Double)", ofFloat Float.abs),
    ("System.Double System.Math::Max(System.Double,System.Double)", ofFloats Floating.larger),
    ("System.Double System.Math::Min(System.Double,System.Double)", ofFloats Floating.smaller),
    ("System.Double System.Math::Sqrt(System.Double)", ofFloat Float.sqrt),
    ("System.Double System.Math::Pow(System.Double,System.Double)", ofFloats Float.pow),
    ("System.Double System.Math::Floor(System.Double)", ofFloat Float.floor),
    ("System.Double System.Math::Ceiling(System.Double)", ofFloat Float.ceil),
    ("System.Double System.Math::Round(System.Double)", ofFloat Floating.roundHalfEven)]

/-- The core library as a module of the host. -/
def module : Except Error Module := do
  let m := types.foldl Module.addType { name := "System" }
  let m ← instanceMethods.foldlM (fun m (reference, code) => m.addMethod reference false code) m
  staticMethods.foldlM (fun m (reference, code) => m.addMethod reference true code) m

end Hotswap.CoreLibrary
