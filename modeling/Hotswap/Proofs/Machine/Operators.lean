import Hotswap.Action
import Hotswap.Proofs.Result
import Hotswap.Symbols.Cast

/-!
# Operators

The operators that actions are made with, sorted: tests on two operands, operators on two operands,
operators on one operand, and the tests of branches. `Opcode.standard_action` goes through the
opcode table and says that there are no others; what is said of all actions is proved from it with
one case per operator and not one per opcode.

What operators give is made of numbers, truth values and strings, or is an operand (`AnswerPlain`,
`AnswerFrom`).
-/

namespace Hotswap

variable {α : Type}

/-! ## The operators of the table -/

/-- The tests on two operands. -/
inductive IsComparison : (Value → Value → Except Error Bool) → Prop
  | same : IsComparison same
  | different : IsComparison different
  | related (r : Relation) (unordered : Bool) : IsComparison (related r unordered)
  | greaterOrUnordered : IsComparison greaterOrUnordered

/-- The operators on two operands. -/
inductive IsBinary : (Value → Value → Except Error Value) → Prop
  | add : IsBinary add
  | arith (op : BinaryOp) : IsBinary (arith op)
  | bitwise (op : BinaryOp) : IsBinary (bitwise op)
  | checked (op : BinaryOp) (unsigned : Bool) : IsBinary (checked op unsigned)
  | divideUnsigned (op : BinaryOp) : IsBinary (divideUnsigned op)

/-- The operators on one operand. -/
inductive IsUnary : (Value → Except Error Value) → Prop
  | negate : IsUnary negate
  | complement : IsUnary complement
  | convert (c : Conversion) : IsUnary (convert c)
  | convertChecked (c : Conversion) (unsigned : Bool) : IsUnary (convertChecked c unsigned)
  | checkFinite : IsUnary checkFinite

/-- The tests of branches on one operand. -/
inductive IsBranchTest : (Value → Except Error Bool) → Prop
  | branchFalse : IsBranchTest branchFalse
  | branchTrue : IsBranchTest branchTrue

/-- A value that carries no type and refers to nothing. -/
def Value.IsPlain : Value → Prop
  | .object _ | .array _ | .delegate _ | .type _ => False
  | _ => True

/-- An action that works with operators of the lists above and pushes plain values. -/
def Action.Standard : Action → Prop
  | .effect (.push v) => v.IsPlain
  | .effect (.compare test) => IsComparison test
  | .effect (.binary operation) => IsBinary operation
  | .effect (.unary operation) => IsUnary operation
  | .transfer (.branchIf test) => IsBranchTest test
  | .transfer (.branchOn test) => IsComparison test
  | _ => True

/-- **Every opcode has an operator of one of these kinds.** -/
theorem Opcode.standard_action (op : Opcode) : op.action.Standard := by
  cases op <;> dsimp only [Opcode.action, Action.Standard, Value.IsPlain] <;>
    with_reducible constructor

/-! ## What operators give -/

/-- An answer that is plain, unless it is an error. -/
def AnswerPlain (r : Except Error Value) : Prop := ∀ v, r = .ok v → v.IsPlain

/-- An answer that is plain or the operand, unless it is an error. -/
def AnswerFrom (v : Value) (r : Except Error Value) : Prop := ∀ w, r = .ok w → w.IsPlain ∨ w = v

/-- A plain answer is one from any operand. -/
theorem AnswerPlain.answerFrom {r : Except Error Value} (h : AnswerPlain r) (v : Value) :
    AnswerFrom v r :=
  fun w hw => .inl (h w hw)

/-- An answer is plain if its value is. -/
theorem answerPlain_ok {v : Value} (h : v.IsPlain) : AnswerPlain (.ok v) :=
  fun _ hv => Except.ok.inj hv ▸ h

/-- An error is a plain answer. -/
theorem answerPlain_error (e : Error) : AnswerPlain (.error e) := nofun

/-- An answer that is made of plain values is plain. -/
theorem answerPlain_map {r : Except Error α} {f : α → Value} (h : ∀ a, (f a).IsPlain) :
    AnswerPlain (r.map f) := by
  cases r with
  | ok a => exact answerPlain_ok (h a)
  | error e => exact answerPlain_error e

/-- Arithmetic gives plain values. -/
theorem answerPlain_arith (op : BinaryOp) (a b : Value) : AnswerPlain (arith op a b) := by
  unfold arith
  repeat' split
  all_goals first
    | exact answerPlain_error _
    | exact answerPlain_ok trivial
    | exact answerPlain_map fun _ => trivial

/-- So does addition, with strings included. -/
theorem answerPlain_add (a b : Value) : AnswerPlain (add a b) := by
  unfold add
  split
  · exact answerPlain_ok trivial
  · exact answerPlain_ok trivial
  · exact answerPlain_arith _ _ _

/-- So do bitwise operators. -/
theorem answerPlain_bitwise (op : BinaryOp) (a b : Value) : AnswerPlain (bitwise op a b) := by
  unfold bitwise
  repeat' split
  all_goals first
    | exact answerPlain_error _
    | exact answerPlain_ok trivial
    | exact answerPlain_map fun _ => trivial

/-- So does checked arithmetic. -/
theorem answerPlain_checked (op : BinaryOp) (unsigned : Bool) (a b : Value) :
    AnswerPlain (checked op unsigned a b) := by
  unfold checked
  dsimp only
  repeat' split
  all_goals first
    | exact answerPlain_error _
    | exact answerPlain_ok trivial
    | exact answerPlain_arith _ _ _

/-- So does unsigned division. -/
theorem answerPlain_divideUnsigned (op : BinaryOp) (a b : Value) :
    AnswerPlain (divideUnsigned op a b) := by
  unfold divideUnsigned
  repeat' split
  all_goals first
    | exact answerPlain_error _
    | exact answerPlain_ok trivial
    | exact answerPlain_arith _ _ _

/-- So does negation. -/
theorem answerPlain_negate (v : Value) : AnswerPlain (negate v) := by
  unfold negate
  split
  all_goals first
    | exact answerPlain_error _
    | exact answerPlain_ok trivial

/-- So does the complement. -/
theorem answerPlain_complement (v : Value) : AnswerPlain (complement v) := by
  unfold complement
  split
  all_goals first
    | exact answerPlain_error _
    | exact answerPlain_ok trivial

/-- A converted number is plain. -/
theorem isPlain_convertNumber (c : Conversion) (float : Option Float) (n : Int64) :
    (convertNumber c float n).IsPlain := by
  cases c <;> trivial

/-- So conversions give plain values. -/
theorem answerPlain_convert (c : Conversion) (v : Value) : AnswerPlain (convert c v) := by
  unfold convert
  split
  · exact answerPlain_ok (isPlain_convertNumber ..)
  · exact answerPlain_ok (isPlain_convertNumber ..)
  · exact answerPlain_error _

/-- So do checked conversions. -/
theorem answerPlain_convertChecked (c : Conversion) (unsigned : Bool) (v : Value) :
    AnswerPlain (convertChecked c unsigned v) := by
  unfold convertChecked
  cases sourceInteger c unsigned v with
  | error e => exact answerPlain_error e
  | ok n =>
    rw [ok_bind]
    split
    · exact answerPlain_ok (isPlain_convertNumber ..)
    · exact answerPlain_error _

/-- The operand itself is an answer from it. -/
theorem answerFrom_operand (v : Value) : AnswerFrom v (.ok v) :=
  fun _ hw => .inr (Except.ok.inj hw).symm

/-- An error is an answer from any operand. -/
theorem answerFrom_error (v : Value) (e : Error) : AnswerFrom v (.error e) := nofun

/-- The test for finite numbers gives its operand back. -/
theorem answerFrom_checkFinite (v : Value) : AnswerFrom v (checkFinite v) := by
  unfold checkFinite
  repeat' split
  all_goals first
    | exact answerFrom_operand v
    | exact answerFrom_error v _

/-- So does a cast. -/
theorem answerFrom_cast (symbols : SymbolTable) (v : Value) (target : TypeHandle) :
    AnswerFrom v (symbols.cast v target) := by
  unfold SymbolTable.cast
  dsimp only
  repeat' split
  all_goals first
    | exact answerFrom_operand v
    | exact answerFrom_error v _
    | exact (answerPlain_ok (v := .bool _) trivial).answerFrom v
    | exact (answerPlain_convert _ _).answerFrom v

/-- A binary operator of the opcode table gives plain values. -/
theorem IsBinary.plain {operation : Value → Value → Except Error Value} (h : IsBinary operation)
    (a b : Value) : AnswerPlain (operation a b) := by
  cases h with
  | add => exact answerPlain_add a b
  | arith op => exact answerPlain_arith op a b
  | bitwise op => exact answerPlain_bitwise op a b
  | checked op unsigned => exact answerPlain_checked op unsigned a b
  | divideUnsigned op => exact answerPlain_divideUnsigned op a b

/-- A unary one gives plain values, or its operand back. -/
theorem IsUnary.answerFrom {operation : Value → Except Error Value} (h : IsUnary operation)
    (v : Value) : AnswerFrom v (operation v) := by
  cases h with
  | negate => exact (answerPlain_negate v).answerFrom v
  | complement => exact (answerPlain_complement v).answerFrom v
  | convert c => exact (answerPlain_convert c v).answerFrom v
  | convertChecked c unsigned => exact (answerPlain_convertChecked c unsigned v).answerFrom v
  | checkFinite => exact answerFrom_checkFinite v

end Hotswap
