import Hotswap.Symbols

/-!
# Resolving names

A closed type, method or field is looked up in the symbol table. Types and methods that have been
looked up are remembered in a `Memo`: types under their text, if they were found, and methods under
the text of their closed signature, whether they were found or not. `Resolve` is the monad of such
lookups. What a lookup has remembered stays remembered when it fails later.
-/

namespace Hotswap

/-- A closed type that has been looked up. -/
structure TypeHandle where
  /-- The type. -/
  name : TypeName
  /-- Its registration; none for arrays, references and pointers. -/
  definition : Option TypeDefinition

namespace TypeHandle

/-- Whether the type is one of delegates. -/
def isDelegate (h : TypeHandle) : Bool := h.definition.any (·.isDelegate)

/-- Whether the values of the type are not references. -/
def isValueType (h : TypeHandle) : Bool := h.definition.any (·.isValueType)

/-- What a variable of the type starts as. -/
def defaultValue (h : TypeHandle) : StateM Memory Value :=
  match h.definition with
  | some d => d.defaultValue h.name
  | none => pure .null

end TypeHandle

/-- A closed field that has been looked up. -/
structure FieldHandle where
  /-- The text of the closed field. -/
  key : String
  /-- The name. -/
  name : String
  /-- The closed type that declares the field. -/
  declaringType : TypeName
  /-- The closed type of the field, if the reference names it. -/
  fieldType : Option TypeName
  /-- How the host keeps the field; none if the machine keeps it. -/
  accessor : Option Accessor

/-- What has been looked up. -/
structure Memo where
  /-- The types that were found, by text. -/
  types : Table String TypeHandle := ∅
  /-- The methods that were looked for, by the text of the closed signature. -/
  methods : Table String (Option HostMethod) := ∅

/-- A lookup, which can fail and remembers what it finds. -/
abbrev Resolve (α : Type) := ExceptT Error (StateM Memo) α

namespace SymbolTable

/-! ## Types -/

/-- Looks a closed type up unless it is remembered, and remembers it if it is found. -/
def remembered (t : TypeName) (search : Resolve TypeHandle) : Resolve TypeHandle := do
  if t.hasPlaceholders then throw (.resolution (t.render ++ ": unbound generic parameter"))
  match (← get).types.get? t.render with
  | some handle => return handle
  | none =>
    let handle ← search
    modify fun memo => { memo with types := memo.types.insert t.render handle }
    return handle

/-- The registration of a type, if its arguments are as many as its name declares. A name without
arguments is not held to that. -/
def definitionOf (symbols : SymbolTable) (name : String) (args : List TypeName) :
    Except Error TypeDefinition :=
  let t := TypeName.named name args
  match symbols.findType? name with
  | none => .error (.resolution t.render)
  | some d =>
    if args.isEmpty ∨ t.arity = args.length then .ok d
    else .error (.resolution (t.render ++ ": " ++ name ++ " takes " ++ toString t.arity ++
      " type arguments, got " ++ toString args.length))

mutual

/-- Looks a closed type up. Its arguments, and the element of an array, a reference or a pointer,
are looked up too. -/
def resolveType (symbols : SymbolTable) : TypeName → Resolve TypeHandle
  | .named name args => remembered (.named name args) do
    let d ← symbols.definitionOf name args
    resolveTypes symbols args
    return ⟨.named name args, some d⟩
  | .suffixed element suffix => remembered (.suffixed element suffix) do
    discard (resolveType symbols element)
    return ⟨.suffixed element suffix, none⟩
  | t => remembered t (throw (.resolution t.render))

/-- Looks several closed types up, from left to right. -/
def resolveTypes (symbols : SymbolTable) : List TypeName → Resolve Unit
  | [] => pure ()
  | t :: rest => do
    discard (resolveType symbols t)
    resolveTypes symbols rest

end

/-! ## Methods -/

/-- The host method that a bound method reaches: the one registered under its open definition, else
the one under its closed signature. -/
def searchMethod (symbols : SymbolTable) (b : BoundMethod) : Option HostMethod :=
  (symbols.findMethod? b.definition.render).or (symbols.findMethod? b.signature.render)

/-- Looks the host method of a bound method up, and remembers the outcome. -/
def hostMethod? (symbols : SymbolTable) (b : BoundMethod) : StateM Memo (Option HostMethod) := do
  let key := b.signature.render
  match (← get).methods.get? key with
  | some outcome => return outcome
  | none =>
    let outcome := symbols.searchMethod b
    modify fun memo => { memo with methods := memo.methods.insert key outcome }
    return outcome

/-- Looks the host method of a bound method up. -/
def resolveMethod (symbols : SymbolTable) (b : BoundMethod) : Resolve HostMethod := do
  match ← symbols.hostMethod? b with
  | some m => return m
  | none => throw (.resolution b.signature.render)

/-! ## Fields -/

/-- The accessor of a closed field: the one registered for the open definition of the declaring
type, else the one for the closed type. -/
def accessor? (symbols : SymbolTable) (f : FieldRef) : Option Accessor :=
  (symbols.findField? (fieldKey f.declaringType f.name)).or (symbols.findField? f.key)

/-- Closes a field reference. -/
def closeField (f : FieldRef) (caller : GenericContext) : Except Error FieldRef :=
  (f.substitute caller.typeArgs caller.methodArgs).mapError fun e =>
    .resolution (GenericContext.closeFailure f.render e)

/-- Looks a field up. A field without an accessor needs a declaring type that is known. -/
def resolveField (symbols : SymbolTable) (f : FieldRef) (caller : GenericContext) :
    Resolve FieldHandle := do
  let closed ← closeField f caller
  let accessor := symbols.accessor? closed
  if accessor.isNone then
    tryCatch (discard (symbols.resolveType closed.declaringType)) fun _ =>
      throw (.resolution closed.render)
  return ⟨closed.key, closed.name, closed.declaringType, closed.fieldType, accessor⟩

end SymbolTable

end Hotswap
