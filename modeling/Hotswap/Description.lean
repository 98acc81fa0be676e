import Hotswap.Symbols

/-!
# Descriptions

How values, objects, methods and symbols are shown to someone who looks into a running machine. A
description of a record names the record and then its fields between braces.
-/

namespace Hotswap

/-- A record with its fields between braces. -/
def describeRecord (name : String) (fields : List (String × String)) : String :=
  name ++ " \x7b " ++ ", ".intercalate (fields.map fun f => f.1 ++ ": " ++ f.2) ++ " \x7d"

/-- A truth value. -/
def describeBool (b : Bool) : String := if b then "true" else "false"

/-- A value with its tag. -/
def Value.describe (h : Heap) (v : Value) : String :=
  match v with
  | .null => "Null"
  | .bool b => "Bool(" ++ describeBool b ++ ")"
  | .int8 _ => "I8(" ++ v.render ++ ")"
  | .int32 _ => "I32(" ++ v.render ++ ")"
  | .int64 _ => "I64(" ++ v.render ++ ")"
  | .float32 _ => "F32(" ++ v.render ++ ")"
  | .float64 _ => "F64(" ++ v.render ++ ")"
  | .string s => "Str(" ++ Text.quoted s ++ ")"
  | .object r => "Object(" ++ r.type.render ++ ")"
  | .array r => "Array(" ++ r.element.render ++ "[" ++ toString (h.items r).size ++ "])"
  | .delegate a =>
    "Callable(" ++ ((h.delegate? a).elim "" fun d => d.method.signature.render) ++ ")"
  | .type t => "Type(" ++ t.render ++ ")"

/-- An object with its fields. -/
def Heap.describeObject (h : Heap) (r : ObjectRef) : String :=
  let fields := (h.content r).fields.entries.map fun (name, v) =>
    Text.quoted name ++ ": " ++ v.describe h
  describeRecord "Object"
    [("class", Text.quoted r.type.render), ("fields", "\x7b" ++ ", ".intercalate fields ++ "\x7d"),
      ("payload", describeBool (h.content r).payload.isSome)]

/-- A method that is ready to be called. -/
def Method.describe (m : Method) : String :=
  describeRecord "Method"
    [("signature", Text.quoted m.signature.render), ("is_static", describeBool m.isStatic),
      ("patched", describeBool m.isPatched)]

/-- A registered type. -/
def TypeDefinition.describe (d : TypeDefinition) : String :=
  let base := match d.base with
    | some t => "Some(" ++ Text.quoted t.render ++ ")"
    | none => "None"
  describeRecord "TypeDef" [("name", Text.quoted d.name), ("kind", d.kind.name), ("base", base)]

/-- A registered method; its code is left out. -/
def HostMethod.describe (m : HostMethod) : String :=
  "MethodDef \x7b definition: " ++ Text.quoted m.definition.render ++ ", return_type: " ++
    Text.quoted m.returnType.render ++ ", is_static: " ++ describeBool m.isStatic ++ ", .. \x7d"

/-- A registered field. -/
def Accessor.describe (a : Accessor) : String :=
  describeRecord "FieldDef"
    [("is_static", describeBool a.isStatic), ("writable", describeBool a.set?.isSome)]

end Hotswap
