import Hotswap.Decimal.Reader
import Hotswap.FormatError

/-!
# Type names

A type reference is a named type with its generic arguments, one of the two kinds of placeholder, or
an array, by-reference or pointer type over another reference. `!N` stands for a generic parameter
of the declaring type and `!!N` for one of the method.

This file holds the type, its text (`TypeName.render`) and the substitution of placeholders
(`TypeName.substitute`). Reading the text is in `Hotswap.TypeName.Scanner`.
-/

namespace Hotswap

/-- What a suffix makes of a type. -/
inductive Suffix where
  /-- `T[]`, an array of one dimension. -/
  | array
  /-- `T&`, a reference to a place of the type. -/
  | byRef
  /-- `T*`, a pointer to the type. -/
  | pointer
  deriving DecidableEq, Repr, Inhabited

/-- The text of a suffix. -/
def Suffix.text : Suffix → String
  | .array => "[]"
  | .byRef => "&"
  | .pointer => "*"

/-- A reference to a type. -/
inductive TypeName where
  /-- A named type, with generic arguments when it is instantiated. -/
  | named (name : String) (args : List TypeName)
  /-- `!N`, a generic parameter of the declaring type. -/
  | typeParam (index : UInt32)
  /-- `!!N`, a generic parameter of the method. -/
  | methodParam (index : UInt32)
  /-- An array, a reference or a pointer over another type. -/
  | suffixed (element : TypeName) (suffix : Suffix)
  deriving Repr, Inhabited

namespace TypeName

/-! ## Equality -/

mutual

/-- Decides whether two type names are equal. -/
def decEq : (s t : TypeName) → Decidable (s = t)
  | .named m as, .named n bs =>
    if h : m = n then
      match decEqList as bs with
      | .isTrue h' => .isTrue (by rw [h, h'])
      | .isFalse h' => .isFalse fun e => by cases e; exact h' rfl
    else .isFalse fun e => by cases e; exact h rfl
  | .typeParam i, .typeParam j =>
    if h : i = j then .isTrue (by rw [h]) else .isFalse fun e => by cases e; exact h rfl
  | .methodParam i, .methodParam j =>
    if h : i = j then .isTrue (by rw [h]) else .isFalse fun e => by cases e; exact h rfl
  | .suffixed s a, .suffixed t b =>
    if h : a = b then
      match decEq s t with
      | .isTrue h' => .isTrue (by rw [h, h'])
      | .isFalse h' => .isFalse fun e => by cases e; exact h' rfl
    else .isFalse fun e => by cases e; exact h rfl
  | .named .., .typeParam _ | .named .., .methodParam _ | .named .., .suffixed .. => .isFalse nofun
  | .typeParam _, .named .. | .typeParam _, .methodParam _ | .typeParam _, .suffixed .. =>
    .isFalse nofun
  | .methodParam _, .named .. | .methodParam _, .typeParam _ | .methodParam _, .suffixed .. =>
    .isFalse nofun
  | .suffixed .., .named .. | .suffixed .., .typeParam _ | .suffixed .., .methodParam _ =>
    .isFalse nofun

/-- Decides whether two lists of type names are equal. -/
def decEqList : (ss ts : List TypeName) → Decidable (ss = ts)
  | [], [] => .isTrue rfl
  | [], _ :: _ => .isFalse nofun
  | _ :: _, [] => .isFalse nofun
  | s :: ss, t :: ts =>
    match decEq s t, decEqList ss ts with
    | .isTrue h, .isTrue h' => .isTrue (by rw [h, h'])
    | .isFalse h, _ => .isFalse fun e => by cases e; exact h rfl
    | _, .isFalse h => .isFalse fun e => by cases e; exact h rfl

end

instance : DecidableEq TypeName := decEq

/-! ## Parts -/

/-- The named type without generic arguments. -/
def plain (name : String) : TypeName := .named name []

/-- The type of the arrays of a type. -/
def arrayOf (element : TypeName) : TypeName := .suffixed element .array

/-- The name of a named type, without its arguments. -/
def name? : TypeName → Option String
  | .named name _ => some name
  | _ => none

/-- The generic arguments; a type that is not named has none. -/
def args : TypeName → List TypeName
  | .named _ args => args
  | _ => []

/-- Whether a type has generic arguments. -/
def isInstantiated (t : TypeName) : Bool := !t.args.isEmpty

/-- What an array, reference or pointer type is over. -/
def element? : TypeName → Option TypeName
  | .suffixed element _ => some element
  | _ => none

/-- The name of the type that methods without a result return. -/
def voidName : String := "System.Void"

/-- Whether a type is the one that methods without a result return. -/
def isVoid (t : TypeName) : Bool := t.name? == some voidName

/-- The number of generic parameters that a text after a backquote declares. The text is digits
after at most one plus sign and counts when it fits in 64 bits. -/
def declaredCount? (cs : List Char) : Option Nat :=
  let digits := match cs with
    | '+' :: rest => rest
    | cs => cs
  if digits.isEmpty || !digits.all Char.isDigit then none
  else
    let n := Decimal.natOfDigits digits
    if n < UInt64.size then some n else none

/-- The number of generic parameters that a name declares after its last backquote. -/
def declaredArity (name : String) : Nat :=
  let cs := name.toList
  if cs.contains '\x60' then
    (declaredCount? (cs.reverse.takeWhile (· != '\x60')).reverse).getD 0
  else 0

/-- The number of generic parameters that the name of a type declares. -/
def arity : TypeName → Nat
  | .named name _ => declaredArity name
  | _ => 0

/-- The parameters `!0`, `!1`, … of a declaring type with a number of them. -/
def typeParams (count : Nat) : List TypeName :=
  (List.range (count % UInt32.size)).map fun i => .typeParam (UInt32.ofNat i)

/-- The parameters `!!0`, `!!1`, … of a method with a number of them. -/
def methodParams (count : Nat) : List TypeName :=
  (List.range (count % UInt32.size)).map fun i => .methodParam (UInt32.ofNat i)

/-- The open generic definition: the arguments of a named type become `!0`, `!1`, …, as many as the
name declares or as there are arguments. Any other type is its own definition. -/
def definition : TypeName → TypeName
  | t@(.named name args) => .named name (typeParams (max t.arity args.length))
  | t => t

/-! ## Text -/

mutual

/-- The text of a type name. -/
def render : TypeName → String
  | .named name args =>
    match args with
    | [] => name
    | t :: rest => name ++ "<" ++ t.render ++ renderTail rest ++ ">"
  | .typeParam index => "!" ++ Nat.repr index.toNat
  | .methodParam index => "!!" ++ Nat.repr index.toNat
  | .suffixed element suffix => element.render ++ suffix.text

/-- The text of the items of a list after the first one, each after a comma. -/
def renderTail : List TypeName → String
  | [] => ""
  | t :: rest => "," ++ t.render ++ renderTail rest

end

/-- The text of a list, with commas between the items. -/
def renderList : List TypeName → String
  | [] => ""
  | t :: rest => t.render ++ renderTail rest

/-- The text of a list between angle brackets, and nothing for an empty list. -/
def renderArgs : List TypeName → String
  | [] => ""
  | args => "<" ++ renderList args ++ ">"

instance : ToString TypeName := ⟨render⟩

/-! ## Placeholders -/

mutual

/-- Whether a placeholder occurs in a type name. -/
def hasPlaceholders : TypeName → Bool
  | .named _ args => anyPlaceholders args
  | .typeParam _ | .methodParam _ => true
  | .suffixed element _ => element.hasPlaceholders

/-- Whether a placeholder occurs in one of several type names. -/
def anyPlaceholders : List TypeName → Bool
  | [] => false
  | t :: rest => t.hasPlaceholders || anyPlaceholders rest

end

mutual

/-- Replaces `!N` by the `N`th of the first list and `!!N` by the `N`th of the second one. The
leftmost placeholder without a binding is the one reported. -/
def substitute (typeArgs methodArgs : List TypeName) : TypeName → Except FormatError TypeName
  | .named name args =>
    match substituteAll typeArgs methodArgs args with
    | .ok args => .ok (.named name args)
    | .error e => .error e
  | t@(.typeParam index) =>
    match typeArgs[index.toNat]? with
    | some arg => .ok arg
    | none => .error (.unboundPlaceholder t.render)
  | t@(.methodParam index) =>
    match methodArgs[index.toNat]? with
    | some arg => .ok arg
    | none => .error (.unboundPlaceholder t.render)
  | .suffixed element suffix =>
    match substitute typeArgs methodArgs element with
    | .ok element => .ok (.suffixed element suffix)
    | .error e => .error e

/-- Replaces the placeholders in several type names, from left to right. -/
def substituteAll (typeArgs methodArgs : List TypeName) :
    List TypeName → Except FormatError (List TypeName)
  | [] => .ok []
  | t :: rest =>
    match substitute typeArgs methodArgs t with
    | .error e => .error e
    | .ok t =>
      match substituteAll typeArgs methodArgs rest with
      | .error e => .error e
      | .ok rest => .ok (t :: rest)

end

end TypeName

end Hotswap
