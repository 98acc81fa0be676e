import Hotswap.Descriptor
import Hotswap.Error
import Hotswap.Value

/-!
# Bound methods

A method reference is bound at a call site: its placeholders are replaced by what they stand for
there. A bound method keeps the closed signature, the open definition that the signature
instantiates, and the generic arguments that the method's own body will read. `BoundMethod.keys` are
the texts under which its descriptor may be filed.

A `Method` is a bound method with the body that has been chosen for it: a descriptor, or a method of
the host. A host method is named here by its declaration and by the module that holds it; the code
that belongs to it is in the symbol table.
-/

namespace Hotswap

/-- The generic arguments of the method that is running. -/
structure GenericContext where
  /-- The arguments of the declaring type, read by `!N`. -/
  typeArgs : List TypeName := []
  /-- The arguments of the method, read by `!!N`. -/
  methodArgs : List TypeName := []
  deriving DecidableEq, Repr, Inhabited

namespace GenericContext

/-- The arguments that a closed signature gives to its own body. -/
def ofSignature (s : Signature) : GenericContext := ⟨s.declaringType.args, s.genericArgs⟩

/-- Whether a placeholder occurs in an argument. -/
def hasPlaceholders (cx : GenericContext) : Bool :=
  TypeName.anyPlaceholders cx.typeArgs || TypeName.anyPlaceholders cx.methodArgs

/-- The name of a type that cannot be closed, with the cause. -/
def closeFailure (text : String) (e : FormatError) : String := text ++ ": " ++ e.message

/-- Closes a type: its placeholders are replaced by the arguments. -/
def close (cx : GenericContext) (t : TypeName) : Except Error TypeName :=
  (t.substitute cx.typeArgs cx.methodArgs).mapError fun e =>
    .resolution (closeFailure t.render e)

/-- Closes several types, from left to right. -/
def closeAll (cx : GenericContext) : List TypeName → Except Error (List TypeName)
  | [] => .ok []
  | t :: rest => do
    let t ← cx.close t
    let rest ← cx.closeAll rest
    return t :: rest

end GenericContext

/-- A method reference that is bound at a call site. -/
structure BoundMethod where
  /-- The closed signature. -/
  signature : Signature
  /-- The open definition that the signature instantiates. -/
  definition : Signature
  /-- The generic arguments for the method's own body. -/
  context : GenericContext
  /-- The type of the result, if the reference names it. -/
  returnType : Option TypeName
  deriving DecidableEq, Repr

namespace BoundMethod

/-- Binds a closed signature that the host supplies. The parameters of the open definition are the
closed ones unless the host gives them. -/
def ofSignature (s : Signature) (definitionParams : Option (List TypeName)) : BoundMethod where
  signature := s
  definition := { s.definition with parameters := definitionParams.getD s.parameters }
  context := .ofSignature s
  returnType := none

/-- The texts under which a descriptor of the method may be filed, the closed one first. -/
def keys (b : BoundMethod) : List String :=
  let closed := b.signature.render
  let opened := b.definition.render
  if closed = opened then [closed] else [closed, opened]

/-- Puts the text of the reference in front of a symbol that cannot be resolved. -/
def unboundIn (m : MethodRef) : Error → Error
  | .resolution reason => .resolution (m.render ++ ": " ++ reason)
  | e => e

/-- Binds a method reference. The declaring type and the generic arguments are closed with the
arguments of the caller, the parameters and the result with those of the method itself. -/
def ofRef (m : MethodRef) (caller : GenericContext) : Except Error BoundMethod :=
  Except.mapError (unboundIn m) do
    let declaringType ← caller.close m.signature.declaringType
    let genericArgs ← caller.closeAll m.signature.genericArgs
    let context : GenericContext := ⟨declaringType.args, genericArgs⟩
    let parameters ← context.closeAll m.signature.parameters
    let returnType ← match m.returnType with
      | none => pure none
      | some t => some <$> context.close t
    return ⟨⟨declaringType, m.signature.name, genericArgs, parameters⟩, m.signature.definition,
      context, returnType⟩

end BoundMethod

/-- A registered host method. -/
structure HostMethod where
  /-- The open definition, which is what it is registered under. -/
  definition : Signature
  /-- The type of the result. -/
  returnType : TypeName
  /-- Whether the method has no receiver. -/
  isStatic : Bool
  /-- The position of the module that holds the method. -/
  module : Nat
  deriving DecidableEq, Repr

/-- Whether a host method has no result. -/
def HostMethod.returnsVoid (m : HostMethod) : Bool := m.returnType.isVoid

/-- The closed signature of a host method with generic arguments. -/
def HostMethod.signatureIn (m : HostMethod) (cx : GenericContext) : Except Error Signature :=
  (m.definition.substitute cx.typeArgs cx.methodArgs).mapError fun e =>
    .resolution (GenericContext.closeFailure m.definition.render e)

/-- Where the body of a method is. -/
inductive Target where
  /-- The body is in a descriptor. -/
  | patched (descriptor : Descriptor)
  /-- The body is code of the host. -/
  | host (method : HostMethod)
  deriving DecidableEq

/-- A method that is ready to be called. -/
structure Method where
  /-- The closed signature. -/
  signature : Signature
  /-- The generic arguments for the method's own body. -/
  context : GenericContext
  /-- The body. -/
  target : Target
  deriving DecidableEq

namespace Method

/-- Whether the method has no receiver. -/
def isStatic (m : Method) : Bool :=
  match m.target with
  | .patched d => d.isStatic
  | .host h => h.isStatic

/-- Whether the method has no result. -/
def returnsVoid (m : Method) : Bool :=
  match m.target with
  | .patched d => d.returnsVoid
  | .host h => h.returnsVoid

/-- Whether the body of the method is in a descriptor. -/
def isPatched (m : Method) : Bool :=
  match m.target with
  | .patched _ => true
  | .host _ => false

/-- The number of parameters. -/
def paramCount (m : Method) : Nat := m.signature.parameters.length

end Method

/-- A method with the receiver it is bound to, if it has one. -/
structure Delegate where
  /-- The method. -/
  method : Method
  /-- The receiver. -/
  receiver : Option Value
  deriving DecidableEq

end Hotswap
