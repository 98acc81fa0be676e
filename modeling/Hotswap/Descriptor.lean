import Hotswap.Instruction
import Hotswap.Signature
import Hotswap.Table

/-!
# Descriptors

A descriptor captures the body of one method so that it can be interpreted in place of the code that
was shipped. Instructions are addressed by their offset in the byte stream they come from, and a
body starts at its lowest offset.

`Body.problems` lists what is structurally wrong with a body: control that leaves it and operands
that do not suit their opcodes. Such a body can still be loaded; it fails when a bad instruction is
reached.
-/

namespace Hotswap

/-- The instructions and the locals of a method. -/
structure Body where
  /-- The depth of the operand stack that the method announces; nothing depends on it. -/
  maxStack : UInt32
  /-- The types of the locals. -/
  locals : List TypeName
  /-- The instructions, by offset. -/
  instructions : Table UInt32 Instruction
  deriving DecidableEq

/-- A method with the body that replaces its code. -/
structure Descriptor where
  /-- The method. -/
  name : Signature
  /-- Whether the method has no receiver. -/
  isStatic : Bool
  /-- The types of the parameters. -/
  parameters : List TypeName
  /-- The type of the result. -/
  returnType : TypeName
  /-- The body. -/
  body : Body
  deriving DecidableEq

/-- Whether the method has no result. -/
def Descriptor.returnsVoid (d : Descriptor) : Bool := d.returnType.isVoid

/-- The number of arguments, the receiver included. -/
def Descriptor.argCount (d : Descriptor) : Nat := d.parameters.length + if d.isStatic then 0 else 1

/-- The offset where a body starts. -/
def Body.entry? (b : Body) : Option UInt32 := b.instructions.keys.head?

/-! ## Problems -/

/-- What is structurally wrong with a body. -/
inductive ProblemKind where
  /-- The next offset is not that of an instruction. -/
  | danglingNext (offset : UInt32)
  /-- A branch target is not the offset of an instruction. -/
  | danglingTarget (offset : UInt32)
  /-- The operand is not of the kind that the opcode takes. -/
  | operandMismatch (expected found : OperandKind)
  /-- Nothing follows an instruction that control passes through. -/
  | fallsOffEnd
  /-- The body has no instructions. -/
  | empty
  deriving DecidableEq, Repr

/-- A problem with the offset where it is. -/
structure Problem where
  /-- The offset. -/
  offset : UInt32
  /-- The problem. -/
  kind : ProblemKind
  deriving DecidableEq, Repr

/-- A number as a problem names it. -/
def hexLiteral (offset : UInt32) : String := "0x" ++ Text.hex offset.toNat

/-- The wording of a problem. -/
def ProblemKind.message : ProblemKind → String
  | .danglingNext offset => "next offset " ++ hexLiteral offset ++ " is not an instruction"
  | .danglingTarget offset => "branch target " ++ hexLiteral offset ++ " is not an instruction"
  | .operandMismatch expected found =>
    "operand is " ++ found.name ++ " but the opcode takes " ++ expected.name
  | .fallsOffEnd => "falls off the end of the method"
  | .empty => "method body is empty"

/-- The wording of a problem, with its offset. -/
def Problem.message (p : Problem) : String := Text.offsetLabel p.offset ++ ": " ++ p.kind.message

namespace Body

/-- The problem with an operand of the wrong kind. -/
def operandProblems (i : Instruction) : List ProblemKind :=
  if i.opcode.operandKind = i.operand.kind then []
  else [.operandMismatch i.opcode.operandKind i.operand.kind]

/-- The problems with branch targets. -/
def targetProblems (b : Body) (i : Instruction) : List ProblemKind :=
  (i.operand.jumpTargets.filter fun t => !b.instructions.contains t).map .danglingTarget

/-- The problem with what follows an instruction that control passes through. -/
def nextProblems (b : Body) (i : Instruction) : List ProblemKind :=
  if i.opcode.isTerminator then []
  else match i.next with
    | none => [.fallsOffEnd]
    | some next => if b.instructions.contains next then [] else [.danglingNext next]

/-- The problems with one instruction. -/
def instructionProblems (b : Body) (i : Instruction) : List ProblemKind :=
  operandProblems i ++ b.targetProblems i ++ b.nextProblems i

/-- Everything that is structurally wrong with a body, by offset. -/
def problems (b : Body) : List Problem :=
  (if b.instructions.isEmpty then [⟨0, .empty⟩] else []) ++
    b.instructions.entries.flatMap fun (offset, i) =>
      (b.instructionProblems i).map fun kind => ⟨offset, kind⟩

end Body

end Hotswap
