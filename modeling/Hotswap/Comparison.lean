import Hotswap.Arithmetic

/-!
# Comparisons of the machine

Comparing instructions and branches order numbers by `compareValues`. `Relation` names the four
orders and `Relation.holds` says when one of them holds of an outcome that may be unordered.

References are compared by place. `nullTest?` is the comparison of a reference with null, and `same`
is what the equality instructions test: a null test, then the place of two references of one kind,
then the equality of numbers, truth values and strings.
-/

namespace Hotswap

/-- An order that an instruction asks about. -/
inductive Relation where
  /-- Not less. -/
  | atLeast
  /-- Greater. -/
  | greater
  /-- Not greater. -/
  | atMost
  /-- Less. -/
  | less
  deriving DecidableEq, Repr

namespace Relation

/-- The name of the order in messages. -/
def symbol : Relation → String
  | .atLeast => ">="
  | .greater => ">"
  | .atMost => "<="
  | .less => "<"

/-- Whether an order holds of two operands that compare in a given way. -/
def ofOrdering : Relation → Ordering → Bool
  | .atLeast, o => o.isGE
  | .greater, o => o.isGT
  | .atMost, o => o.isLE
  | .less, o => o.isLT

/-- Whether an order holds of an outcome. Operands without an order give `unordered`. -/
def holds (r : Relation) (unordered : Bool) : Option Ordering → Bool
  | none => unordered
  | some o => r.ofOrdering o

end Relation

/-- Whether two values stand in an order. -/
def related (r : Relation) (unordered : Bool) (a b : Value) : Except Error Bool :=
  (compareValues r.symbol a b).map (r.holds unordered)

/-- Whether a value can be compared with null. -/
def Value.isReference : Value → Bool
  | .null | .object _ | .array _ | .delegate _ | .string _ | .type _ => true
  | _ => false

/-- Whether two references of which one is null are the same; nothing for any other two values. -/
def nullTest? (a b : Value) : Option Bool :=
  if (a.isNull || b.isNull) && a.isReference && b.isReference then some (a.isSame b) else none

/-- Whether two values count as the same in a comparison of the machine. -/
def same (a b : Value) : Except Error Bool :=
  match nullTest? a b, a, b with
  | some equal, _, _ => .ok equal
  | none, .object _, .object _ | none, .array _, .array _ | none, .delegate _, .delegate _ =>
    .ok (a.isSame b)
  | none, _, _ => equal a b

/-- Whether a value is greater than another, or they have no order. Beside null it asks whether a
reference is there. -/
def greaterOrUnordered (a b : Value) : Except Error Bool :=
  match nullTest? a b with
  | some equal => .ok (!equal)
  | none => related .greater true a b

end Hotswap
