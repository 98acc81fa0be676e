import Hotswap.Host

/-!
# Symbols

What the host offers to patched code: types, methods with their code, and fields with accessors. A
module holds the symbols of one part of the host under their texts, and a symbol table is a list of
modules of which the first that has a symbol wins.

A method is registered under the text of its open definition, so that one registration serves every
instantiation. A field is registered under the open definition of its declaring type and its name.
-/

namespace Hotswap

/-! ## Types -/

/-- The kind of a type. -/
inductive TypeKind where
  /-- A class. -/
  | classType
  /-- A type whose values are not references. -/
  | valueType
  /-- An interface. -/
  | interface
  /-- A type of delegates. -/
  | delegate
  deriving DecidableEq, Repr

/-- The name of a kind. -/
def TypeKind.name : TypeKind → String
  | .classType => "Class"
  | .valueType => "ValueType"
  | .interface => "Interface"
  | .delegate => "Delegate"

/-- A registered type. -/
structure TypeDefinition where
  /-- The name, without generic arguments. -/
  name : String
  /-- The kind. -/
  kind : TypeKind
  /-- The type that this one is derived from. -/
  base : Option TypeName := none
  /-- How a value of a value type starts, if not as an object without fields. -/
  initial : Option (StateM Memory Value) := none

namespace TypeDefinition

/-- Whether the values of the type are not references. -/
def isValueType (d : TypeDefinition) : Bool := d.kind = .valueType

/-- Whether the type is one of delegates. -/
def isDelegate (d : TypeDefinition) : Bool := d.kind = .delegate

/-- What a variable of the type starts as, for a closed instantiation of it. -/
def defaultValue (d : TypeDefinition) (closed : TypeName) : StateM Memory Value :=
  match d.kind, d.initial with
  | .valueType, some initial => initial
  | .valueType, none => fun m => m.newObject closed
  | _, _ => pure .null

end TypeDefinition

/-! ## Methods and fields -/

/-- A registered method with its code. -/
structure MethodDefinition where
  /-- The open definition. -/
  definition : Signature
  /-- The type of the result. -/
  returnType : TypeName
  /-- Whether the method has no receiver. -/
  isStatic : Bool
  /-- The code. -/
  code : HostCode

/-- A registered field. -/
structure Accessor where
  /-- Whether the field belongs to the type and not to its values. -/
  isStatic : Bool
  /-- Reads the field of a target. -/
  get : Value → MemoryAction Value
  /-- Writes the field of a target, if the field can be written. -/
  set? : Option (Value → Value → MemoryAction Unit)

/-- Writes a field of a target. The key names the field if it cannot be written. -/
def Accessor.set (a : Accessor) (key : String) (target v : Value) : MemoryAction Unit :=
  match a.set? with
  | some write => write target v
  | none => throw (.native ("field '" ++ key ++ "' is read-only"))

/-- The text that a field is registered under. -/
def fieldKey (declaringType : TypeName) (name : String) : String :=
  declaringType.definition.render ++ "::" ++ name

/-! ## Modules -/

/-- The symbols of one part of the host. -/
structure Module where
  /-- The name. -/
  name : String
  /-- The types, by name. -/
  types : Table String TypeDefinition := ∅
  /-- The methods, by the text of the open definition. -/
  methods : Table String MethodDefinition := ∅
  /-- The fields, by key. -/
  fields : Table String Accessor := ∅

namespace Module

/-- Registers a type, in place of one of that name. -/
def addType (m : Module) (d : TypeDefinition) : Module :=
  { m with types := m.types.insert d.name d }

/-- Registers a method that the module does not have yet. The reference must name the type of the
result. -/
def addMethod (m : Module) (reference : String) (isStatic : Bool) (code : HostCode) :
    Except Error Module := do
  let ref ← (MethodRef.parse reference).mapError .format
  let some returnType := ref.returnType
    | .error (.format (.invalidSignature reference "missing return type"))
  let definition := ref.signature.definition
  let key := definition.render
  if m.methods.contains key then .error (.duplicateSignature key)
  return { m with methods := m.methods.insert key ⟨definition, returnType, isStatic, code⟩ }

/-- Registers a field, in place of one under that key. -/
def addField (m : Module) (reference : String) (a : Accessor) : Except Error Module := do
  let ref ← (FieldRef.parse reference).mapError .format
  return { m with fields := m.fields.insert (fieldKey ref.declaringType ref.name) a }

end Module

/-! ## Symbol tables -/

/-- The modules of the host, in the order in which they are searched. -/
structure SymbolTable where
  /-- The modules. -/
  modules : List Module := []

namespace SymbolTable

/-- The type of a name. -/
def findType? (t : SymbolTable) (name : String) : Option TypeDefinition :=
  t.modules.findSome? (·.types.get? name)

/-- The field under a key. -/
def findField? (t : SymbolTable) (key : String) : Option Accessor :=
  t.modules.findSome? (·.fields.get? key)

/-- The method under a key, as the machine knows it. -/
def findMethod? (t : SymbolTable) (key : String) : Option HostMethod :=
  t.modules.zipIdx.findSome? fun (m, position) =>
    (m.methods.get? key).map fun d => ⟨d.definition, d.returnType, d.isStatic, position⟩

/-- The code of a method. -/
def code? (t : SymbolTable) (m : HostMethod) : Option HostCode := do
  let holder ← t.modules[m.module]?
  let d ← holder.methods.get? m.definition.render
  return d.code

end SymbolTable

end Hotswap
