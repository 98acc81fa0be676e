import Hotswap.Document.Decoder
import Hotswap.Document.Printer
import Hotswap.Instruction
import Hotswap.Opcode.Lookup

/-!
# Instructions in documents

An instruction is a record of four fields: the opcode as a name or a code, an operand type, the
operand and the next offset. Writing uses the mnemonic and leaves out what is not there.

Reading goes by the opcode alone: the kind of operand that the opcode takes decides how the operand
is decoded. The operand type must be a known one when it is given, and nothing else depends on it.
Integers, branch targets and slots may be given as numbers or as strings of digits, floating-point
numbers also as strings, and the targets of a multi-way branch as an array or as a string that holds
one. The faults of one instruction are met in this order: its document, the opcode, the operand
type, the operand.
-/

namespace Hotswap

/-- The operand types that a document may name; an operand type may also be given by its position
here. -/
def operandTypeNames : List String :=
  ["None", "Int", "Float", "String", "Method", "Type", "Instruction", "Instructions", "Variable",
    "Other"]

/-- The operand type that is written for a kind: fields go as variables, tokens as types, and call
sites as the last one. -/
def OperandKind.operandType : OperandKind → String
  | .field => "Variable"
  | .token => "Type"
  | .callSite => "Other"
  | kind => kind.name

/-! ## Operands -/

namespace Operand

/-- The document of an operand. -/
def toDocument : Operand → Document
  | .none => .null
  | .int n => Document.ofInt n.toInt
  | .float x => Document.ofFloat x
  | .string s | .method s | .type s | .field s | .token s | .callSite s => Document.ofString s
  | .target offset => Document.ofNat offset.toNat
  | .targets offsets => .array (offsets.map fun o => Document.ofNat o.toNat)
  | .slot index => Document.ofNat index.toNat

/-- The integer that a number or a string of digits stands for. -/
def integerOf? : Document → Option Int64
  | .number numeral => (Document.numberOf? numeral).bind (·.toInt64?)
  | .string raw => (Document.textOf? raw).bind Decimal.readInt64?
  | _ => Option.none

/-- The natural number below a bound that a number or a string of digits stands for. -/
def naturalOf? (bound : Nat) (d : Document) : Option Nat :=
  (integerOf? d).bind fun n =>
    if 0 ≤ n.toInt ∧ n.toInt < bound then some n.toInt.toNat else Option.none

/-- The floating-point number that a number or a string stands for. -/
def floatOf? : Document → Option Float
  | .number numeral => (Document.numberOf? numeral).map (·.toFloat)
  | .string raw => (Document.textOf? raw).bind Decimal.readFloat?
  | _ => Option.none

/-- The offset that a document stands for. -/
def offsetOf? (d : Document) : Option UInt32 := (naturalOf? UInt32.size d).map UInt32.ofNat

/-- The offsets that the items of an array stand for. -/
def offsetsOf? : List Document → Option (List UInt32)
  | [] => some []
  | d :: rest =>
    match offsetOf? d, offsetsOf? rest with
    | some offset, some offsets => some (offset :: offsets)
    | _, _ => Option.none

/-- The string of a document. -/
def stringOf? : Document → Option String
  | .string raw => Document.textOf? raw
  | _ => Option.none

/-- Accepts a document in which everything can be decoded. -/
def readable (levels : Nat) (d : Document) : Document.Decoded Document :=
  if d.isReadable levels then .ok d else .error .malformedDocument

/-- The document that a string of targets holds; any other document stands for itself. -/
def unfoldTargets : Document → Document.Decoded Document
  | .string raw =>
    match Document.textOf? raw with
    | some text =>
      (Document.decodeSource (readable Document.depthLimit) text).mapError fun _ =>
        .malformedDocument
    | Option.none => .error .malformedDocument
  | d => .ok d

/-- Decodes the operand of an opcode. -/
def decode (opcode : Opcode) (d : Document) : Document.Decoded Operand :=
  let orRefuse (reason : String) : Option Operand → Document.Decoded Operand
    | some operand => .ok operand
    | Option.none => .error (.invalidOperand opcode reason)
  let text (make : String → Operand) := orRefuse "expected a string" ((stringOf? d).map make)
  match opcode.operandKind with
  | .none => .ok .none
  | .int => orRefuse "expected an integer" ((integerOf? d).map .int)
  | .float => orRefuse "expected a number" ((floatOf? d).map .float)
  | .string => text .string
  | .method => text .method
  | .type => text .type
  | .field => text .field
  | .token => text .token
  | .callSite => text .callSite
  | .target => orRefuse "expected a branch offset" ((offsetOf? d).map .target)
  | .targets => do
    match ← unfoldTargets d with
    | .array items =>
      orRefuse "expected a list of branch offsets" ((offsetsOf? items).map .targets)
    | _ => .error (.invalidOperand opcode "expected a list of branch offsets")
  | .slot =>
    orRefuse "expected a slot index"
      ((naturalOf? UInt16.size d).map fun n => .slot (UInt16.ofNat n))

end Operand

/-! ## Instructions -/

namespace Instruction

/-- How an opcode or an operand type is given in a document. -/
inductive Spelling where
  /-- By its name. -/
  | name (text : String)
  /-- By its position in an enumeration. -/
  | code (n : Nat)
  deriving DecidableEq

/-- Decodes a name or a code below a bound. -/
def decodeSpelling (bound : Nat) : Document → Document.Decoded Spelling
  | .string raw => Spelling.name <$> Document.decodeString (.string raw)
  | d => Spelling.code <$> Document.decodeBelow bound d

/-- An instruction as far as its record has been decoded. -/
structure Draft where
  /-- The opcode. -/
  code : Option Spelling := none
  /-- The operand type. -/
  operandType : Option Spelling := none
  /-- The operand. -/
  operand : Document := .null
  /-- The next offset. -/
  next : Option UInt32 := none

/-- The fields of an instruction, in the order of an array. -/
def fields : List Document.Field :=
  [⟨"code", "Code"⟩, ⟨"operandType", "OperandType"⟩, ⟨"operand", "Operand"⟩,
    ⟨"nextOffset", "NextOffset"⟩]

/-- Decodes one field of an instruction. -/
def decodeField (levels : Nat) (draft : Draft) (i : Nat) (d : Document) :
    Document.Decoded Draft := do
  match i with
  | 0 => return { draft with code := some (← decodeSpelling UInt16.size d) }
  | 1 =>
    return { draft with operandType := ← Document.decodeOption (decodeSpelling UInt8.size) d }
  | 2 => return { draft with operand := ← Operand.readable levels d }
  | _ => return { draft with next := ← Document.decodeOption Document.decodeUInt32 d }

/-- The opcode with a spelling. -/
def opcodeOf : Spelling → Document.Decoded Opcode
  | .name name =>
    match Opcode.ofName? name with
    | some op => .ok op
    | none => .error (.unknownOpcodeName name)
  | .code n =>
    match Opcode.ofCode? n with
    | some op => .ok op
    | none => .error (.unknownOpcodeCode (UInt16.ofNat n))

/-- Requires that an operand type, if there is one, is a known one. -/
def checkOperandType : Option Spelling → Document.Decoded Unit
  | none => .ok ()
  | some (.name name) =>
    if operandTypeNames.contains name then .ok () else .error (.unknownOperandType name)
  | some (.code n) =>
    if n < operandTypeNames.length then .ok () else .error (.unknownOperandType (toString n))

/-- Decodes an instruction, with a number of levels of nesting left. -/
def decode (levels : Nat) (d : Document) : Document.Decoded Instruction := do
  let draft ← Document.decodeRecord fields (decodeField (levels - 1)) {} d
  let opcode ← opcodeOf (← Document.require draft.code)
  checkOperandType draft.operandType
  let operand ← Operand.decode opcode draft.operand
  return ⟨opcode, operand, draft.next⟩

/-- The document of an instruction. -/
def toDocument (i : Instruction) : Document :=
  let operandType := match i.operand.kind with
    | .none => []
    | kind => [("operandType", Document.ofString kind.operandType)]
  let next := match i.next with
    | none => []
    | some offset => [("nextOffset", Document.ofNat offset.toNat)]
  Document.ofMembers
    ([("code", Document.ofString i.opcode.mnemonic)] ++ operandType ++
      [("operand", i.operand.toDocument)] ++ next)

/-- Reads the text of one instruction. -/
def parse (text : String) : Except FormatError Instruction :=
  Document.decodeSource (decode Document.depthLimit) text

end Instruction

end Hotswap
