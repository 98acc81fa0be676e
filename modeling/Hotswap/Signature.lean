import Hotswap.TypeName.Scanner

/-!
# Method and field references

A `Signature` is the identity of a method: the declaring type, the name, the generic arguments of a
generic method and the parameter types. A `MethodRef` is a signature as an instruction names it,
with the type the method returns in front. A `FieldRef` names a field in the same manner.

The parameter types of a method reference are written relative to the method's definition: `!N` is
a parameter of its declaring type and `!!N` one of its own. The declaring type and the generic
arguments are written relative to the method that holds the reference.
-/

namespace Hotswap

/-- The identity of a method. -/
structure Signature where
  /-- The type that declares the method. -/
  declaringType : TypeName
  /-- The name of the method. -/
  name : String
  /-- The generic arguments of the method. -/
  genericArgs : List TypeName := []
  /-- The types of the parameters. -/
  parameters : List TypeName := []
  deriving DecidableEq, Repr, Inhabited

namespace Signature

/-- The text of a signature, which is also the key it is filed under. -/
def render (s : Signature) : String :=
  s.declaringType.render ++ "::" ++ s.name ++ TypeName.renderArgs s.genericArgs ++
    "(" ++ TypeName.renderList s.parameters ++ ")"

instance : ToString Signature := ⟨render⟩

/-- Whether a placeholder occurs in a signature. -/
def hasPlaceholders (s : Signature) : Bool :=
  s.declaringType.hasPlaceholders || TypeName.anyPlaceholders s.genericArgs ||
    TypeName.anyPlaceholders s.parameters

/-- Whether a signature is one of a generic type or of a generic method. -/
def isGeneric (s : Signature) : Bool := s.declaringType.isInstantiated || !s.genericArgs.isEmpty

/-- Replaces every placeholder, from left to right. -/
def substitute (typeArgs methodArgs : List TypeName) (s : Signature) :
    Except FormatError Signature := do
  let declaringType ← s.declaringType.substitute typeArgs methodArgs
  let genericArgs ← TypeName.substituteAll typeArgs methodArgs s.genericArgs
  let parameters ← TypeName.substituteAll typeArgs methodArgs s.parameters
  return ⟨declaringType, s.name, genericArgs, parameters⟩

/-- The signature of the open definition that a signature instantiates: the generic arguments
become `!N` and `!!N`, and the parameters stay as they are. -/
def definition (s : Signature) : Signature :=
  { s with
    declaringType := s.declaringType.definition
    genericArgs := TypeName.methodParams s.genericArgs.length }

end Signature

/-- A reference to a method. -/
structure MethodRef where
  /-- The type that the method returns, if it is written. -/
  returnType : Option TypeName
  /-- The method. -/
  signature : Signature
  deriving DecidableEq, Repr, Inhabited

/-- A reference to a field. -/
structure FieldRef where
  /-- The type of the field, if it is written. -/
  fieldType : Option TypeName
  /-- The type that declares the field. -/
  declaringType : TypeName
  /-- The name of the field. -/
  name : String
  deriving DecidableEq, Repr, Inhabited

/-! ## Text -/

/-- The text of a type in front of a reference. -/
def renderLeading : Option TypeName → String
  | none => ""
  | some t => t.render ++ " "

/-- The text of a method reference. -/
def MethodRef.render (m : MethodRef) : String := renderLeading m.returnType ++ m.signature.render

/-- The text of a field without its type, which is also the key it is filed under. -/
def FieldRef.key (f : FieldRef) : String := f.declaringType.render ++ "::" ++ f.name

/-- The text of a field reference. -/
def FieldRef.render (f : FieldRef) : String := renderLeading f.fieldType ++ f.key

/-! ## Reading -/

/-- Reads `[type] type "::"`. -/
def Cursor.leadingTypes (c : Cursor) :
    Except ScanError ((Option TypeName × TypeName) × Cursor) := do
  let (first, c) ← c.type
  let c := c.skipBlanks
  match c.eat? [':', ':'] with
  | some c => return ((none, first), c)
  | none =>
    let (second, c) ← c.type
    let c := c.skipBlanks
    match c.eat? [':', ':'] with
    | some c => return ((some first, second), c)
    | none => .error (c.fail "expected '::'")

/-- Reads the generic arguments of a method, if there are any. -/
def Cursor.genericArgs (c : Cursor) : Except ScanError (List TypeName × Cursor) :=
  match c.eat? ['<'] with
  | some c => c.types '>'
  | none => .ok ([], c)

/-- Reads a method reference; the failure is the reason in words. -/
def MethodRef.scan (text : String) : Except String MethodRef := do
  let (((returnType, declaringType), c)) ←
    (Cursor.ofString text).leadingTypes.mapError ScanError.described
  let (name, c) ← c.name.mapError ScanError.described
  let (genericArgs, c) ← c.genericArgs.mapError ScanError.described
  let c := c.skipBlanks
  match c.eat? ['('] with
  | none => .error "missing parameter list"
  | some c =>
    let (parameters, c) ← (c.types ')').mapError ScanError.described
    c.finish.mapError ScanError.described
    return ⟨returnType, ⟨declaringType, name, genericArgs, parameters⟩⟩

/-- Reads a field reference. -/
def FieldRef.scan (text : String) : Except ScanError FieldRef := do
  let (((fieldType, declaringType), c)) ← (Cursor.ofString text).leadingTypes
  let (name, c) ← c.name
  c.finish
  return ⟨fieldType, declaringType, name⟩

/-- Reads a method reference. -/
def MethodRef.parse (text : String) : Except FormatError MethodRef :=
  (MethodRef.scan text).mapError (.invalidSignature text)

/-- Reads a signature; a return type in front is dropped. -/
def Signature.parse (text : String) : Except FormatError Signature :=
  (MethodRef.parse text).map (·.signature)

/-- Reads a field reference. -/
def FieldRef.parse (text : String) : Except FormatError FieldRef :=
  (FieldRef.scan text).mapError fun e => .invalidSignature text e.described

/-! ## Parts -/

namespace MethodRef

/-- Whether a reference is to a constructor. -/
def isConstructor (m : MethodRef) : Bool :=
  m.signature.name == ".ctor" || m.signature.name == ".cctor"

/-- Whether a reference is to a method without a result; one that names no type has none. -/
def returnsVoid (m : MethodRef) : Bool :=
  match m.returnType with
  | none => true
  | some t => t.isVoid

end MethodRef

/-- Replaces every placeholder, from left to right. -/
def FieldRef.substitute (typeArgs methodArgs : List TypeName) (f : FieldRef) :
    Except FormatError FieldRef := do
  let fieldType ← match f.fieldType with
    | none => pure none
    | some t => some <$> t.substitute typeArgs methodArgs
  let declaringType ← f.declaringType.substitute typeArgs methodArgs
  return ⟨fieldType, declaringType, f.name⟩

end Hotswap
