import Hotswap.Decimal.Style
import Hotswap.Opcode.Table
import Hotswap.Text.Quoted

/-!
# Instructions

An instruction is an opcode with its operand and the offset of the instruction that follows it in a
straight line. Names in operands are kept as text and are read when the instruction runs.
-/

namespace Hotswap

/-- The operand of an instruction. -/
inductive Operand where
  /-- No operand. -/
  | none
  /-- An integer literal. -/
  | int (n : Int64)
  /-- A floating-point literal. -/
  | float (x : Float)
  /-- A string literal. -/
  | string (s : String)
  /-- The text of a method reference. -/
  | method (text : String)
  /-- The text of a type name. -/
  | type (text : String)
  /-- The text of a field reference. -/
  | field (text : String)
  /-- The text of a metadata token. -/
  | token (text : String)
  /-- A branch target. -/
  | target (offset : UInt32)
  /-- The targets of a multi-way branch. -/
  | targets (offsets : List UInt32)
  /-- The number of an argument or of a local. -/
  | slot (index : UInt16)
  /-- The text of the signature of an indirect call. -/
  | callSite (text : String)
  deriving DecidableEq

/-- The kind of an operand. -/
def Operand.kind : Operand → OperandKind
  | .none => .none
  | .int _ => .int
  | .float _ => .float
  | .string _ => .string
  | .method _ => .method
  | .type _ => .type
  | .field _ => .field
  | .token _ => .token
  | .target _ => .target
  | .targets _ => .targets
  | .slot _ => .slot
  | .callSite _ => .callSite

/-- The offsets that an operand can send control to. -/
def Operand.jumpTargets : Operand → List UInt32
  | .target offset => [offset]
  | .targets offsets => offsets
  | _ => []

/-- The text of an operand in a listing. -/
def Operand.render : Operand → String
  | .none => ""
  | .int n => toString n.toInt
  | .float x => Decimal.FloatStyle.plain.render64 x
  | .string s => Text.quoted s
  | .method text | .type text | .field text | .token text | .callSite text => text
  | .target offset => Text.offsetLabel offset
  | .targets offsets => "(" ++ ", ".intercalate (offsets.map Text.offsetLabel) ++ ")"
  | .slot index => toString index.toNat

/-- An instruction of a method body. -/
structure Instruction where
  /-- What the instruction does. -/
  opcode : Opcode
  /-- What it does it with. -/
  operand : Operand
  /-- The offset of the instruction that follows in a straight line, if there is one. -/
  next : Option UInt32
  deriving DecidableEq

/-- An instruction as a listing shows it. -/
def Instruction.render (i : Instruction) : String :=
  match i.operand with
  | .none => i.opcode.mnemonic
  | operand => i.opcode.mnemonic ++ " " ++ operand.render

end Hotswap
