import Hotswap.Arithmetic.Conversion
import Hotswap.Symbols.Resolver

/-!
# Instances and casts

`SymbolTable.isInstance` says whether a value has a type. An object has its class and every type
that is reached from there by going to the registered base, at most `hierarchyDepth` times. The
other values have the types that their tags stand for.

`SymbolTable.cast` lets a value pass that has the type, and converts between numbers and truth
values otherwise.
-/

namespace Hotswap

namespace SymbolTable

/-- How many classes of a chain of bases are looked at. -/
def hierarchyDepth : Nat := 64

/-- The registered base of a class. -/
def base? (symbols : SymbolTable) (c : TypeName) : Option TypeName := do
  let name ← c.name?
  let d ← symbols.findType? name
  d.base

/-- Whether a type is among the first classes of the chain of bases that starts at a class. -/
def derives (symbols : SymbolTable) (target : TypeName) : Nat → TypeName → Bool
  | 0, _ => false
  | depth + 1, c =>
    decide (c = target) ||
      match symbols.base? c with
      | some b => symbols.derives target depth b
      | none => false

/-- Whether a value has a type. Null has none. -/
def isInstance (symbols : SymbolTable) (v : Value) (target : TypeHandle) : Bool :=
  let name := target.name.name?
  if name = some "System.Object" then !v.isNull
  else match v with
    | .null => false
    | .object r => symbols.derives target.name hierarchyDepth r.type
    | .array r =>
      match target.name with
      | .suffixed element .array => decide (element = r.element)
      | _ => name = some "System.Array"
    | .delegate _ =>
      target.isDelegate || name = some "System.Delegate" || name = some "System.MulticastDelegate"
    | .type _ | .string _ => name = some v.typeName
    | _ => name = some "System.ValueType" || name = some v.typeName

/-- The conversion that a cast to a type of numbers makes. -/
def castConversion? : String → Option Conversion
  | "System.SByte" => some .i1
  | "System.Byte" => some .u1
  | "System.Int16" => some .i2
  | "System.UInt16" | "System.Char" => some .u2
  | "System.Int32" => some .i4
  | "System.UInt32" => some .u4
  | "System.Int64" => some .i8
  | "System.UInt64" => some .u8
  | "System.Single" => some .r4
  | "System.Double" => some .r8
  | _ => none

/-- The truth value of a number: whether it is not zero. -/
def truth (v : Value) : Bool := !v.isFalsy && !(v.toFloat?.any (· == 0))

/-- Casts a value to a type. -/
def cast (symbols : SymbolTable) (v : Value) (target : TypeHandle) : Except Error Value :=
  if v.isNull || symbols.isInstance v target then .ok v
  else
    let invalid := Error.invalidCast v.typeName target.name.render
    if v.toFloat?.isNone then .error invalid
    else match target.name.name? with
      | some "System.Boolean" => .ok (.bool (truth v))
      | some name =>
        match castConversion? name with
        | some c => convert c v
        | none => .error invalid
      | none => .error invalid

end SymbolTable

end Hotswap
