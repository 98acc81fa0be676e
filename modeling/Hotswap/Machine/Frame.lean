import Hotswap.Machine

/-!
# Frames

A frame runs one descriptor. It holds the arguments, the receiver first if there is one, the locals,
and the operand stack with its top at the head. `FrameAction` is the monad of computations in a
frame; an error discards the frame and keeps the state of the machine.

The operations here are the only ones that the instructions use: pushing and popping, the slots, and
reading the operand of an instruction.
-/

namespace Hotswap

/-- A descriptor in the course of being run. -/
structure Frame where
  /-- The descriptor. -/
  descriptor : Descriptor
  /-- The generic arguments of the method. -/
  context : GenericContext
  /-- The arguments. -/
  args : List Value
  /-- The locals. -/
  locals : List Value
  /-- The operand stack, the top first. -/
  stack : List Value := []
  /-- Where control is. -/
  offset : UInt32
  /-- Whether the function that was loaded last leaves a target below it, which goes away when a
  delegate is made of the function. -/
  pendingTarget : Bool := false

/-- A frame at the beginning of a descriptor. Its locals start at the defaults of their types. -/
def Frame.start (scope : Scope) (d : Descriptor) (context : GenericContext) (args : List Value) :
    Machine Frame := do
  let entry := d.body.entry?.getD 0
  if args.length ≠ d.argCount then
    Machine.fail (.malformedDescriptor d.name.render entry (.argumentCount d.argCount args.length))
  let locals ← d.body.locals.mapM fun t => do
    scope.defaultValue (← Machine.ofExcept (context.close t))
  return ⟨d, context, args, locals, [], entry, false⟩

/-- A computation in a frame. -/
abbrev FrameAction (α : Type) := StateT Frame (ExceptT Stop (StateM State)) α

namespace FrameAction

variable {α : Type}

/-- A computation of the machine. -/
def ofMachine (m : Machine α) : FrameAction α := fun f => do return (← m, f)

/-- Stops with an error. -/
def fail (e : Error) : FrameAction α := ofMachine (Machine.fail e)

/-- Gives a result or stops with an error. -/
def ofExcept (r : Except Error α) : FrameAction α := ofMachine (Machine.ofExcept r)

/-- Stops because the descriptor cannot be run as it is. -/
def malformed (reason : Malformation) : FrameAction α := do
  let f ← get
  fail (.malformedDescriptor f.descriptor.name.render f.offset reason)

/-! ## The stack -/

/-- Pushes a value. -/
def push (v : Value) : FrameAction Unit := modify fun f => { f with stack := v :: f.stack }

/-- Stops because there are too few operands. -/
def underflow : FrameAction α := do
  let f ← get
  fail (.stackUnderflow f.descriptor.name.render f.offset)

/-- Pops a value. -/
def pop : FrameAction Value := do
  match (← get).stack with
  | [] => underflow
  | v :: rest =>
    modify fun f => { f with stack := rest }
    return v

/-- Pops several values and gives them in the order in which they were pushed. -/
def popMany (count : Nat) : FrameAction (List Value) := do
  let stack := (← get).stack
  if stack.length < count then underflow
  else
    modify fun f => { f with stack := stack.drop count }
    return (stack.take count).reverse

/-- Pops two values and gives them in the order in which they were pushed. -/
def popPair : FrameAction (Value × Value) := do
  let b ← pop
  let a ← pop
  return (a, b)

/-! ## Arguments and locals -/

/-- Reads an argument. -/
def loadArg (slot : Nat) : FrameAction Value := do
  let f ← get
  match f.args[slot]? with
  | some v => return v
  | none => malformed (.noArgument slot f.args.length)

/-- Replaces an argument. -/
def storeArg (slot : Nat) (v : Value) : FrameAction Unit := do
  let f ← get
  if slot < f.args.length then modify fun f => { f with args := f.args.set slot v }
  else malformed (.noArgument slot f.args.length)

/-- Reads a local. -/
def loadLocal (slot : Nat) : FrameAction Value := do
  let f ← get
  match f.locals[slot]? with
  | some v => return v
  | none => malformed (.noLocal slot f.locals.length)

/-- Replaces a local. -/
def storeLocal (slot : Nat) (v : Value) : FrameAction Unit := do
  let f ← get
  if slot < f.locals.length then modify fun f => { f with locals := f.locals.set slot v }
  else malformed (.noLocal slot f.locals.length)

/-! ## Operands -/

/-- Stops because the operand does not suit the opcode. -/
def badOperand (i : Instruction) : FrameAction α :=
  malformed (.operandMismatch i.opcode i.operand.kind)

/-- The slot in an operand. -/
def slotOperand (i : Instruction) : FrameAction Nat :=
  match i.operand with
  | .slot index => return index.toNat
  | .int n => if n < 0 then malformed (.negativeSlot n) else return n.toNatClampNeg
  | _ => badOperand i

/-- The slot that an instruction names: a fixed one, else the one in the operand. -/
def slotOf (fixed : Option Nat) (i : Instruction) : FrameAction Nat :=
  match fixed with
  | some slot => return slot
  | none => slotOperand i

/-- The integer in an operand. -/
def intOperand (i : Instruction) : FrameAction Int64 :=
  match i.operand with
  | .int n => return n
  | _ => badOperand i

/-- The number in an operand. -/
def floatOperand (i : Instruction) : FrameAction Float :=
  match i.operand with
  | .float x => return x
  | .int n => return n.toFloat
  | _ => badOperand i

/-- The string in an operand. -/
def stringOperand (i : Instruction) : FrameAction String :=
  match i.operand with
  | .string s => return s
  | _ => badOperand i

/-- The branch target in an operand. -/
def targetOperand (i : Instruction) : FrameAction UInt32 :=
  match i.operand with
  | .target offset => return offset
  | _ => badOperand i

/-- The branch targets in an operand. -/
def targetsOperand (i : Instruction) : FrameAction (List UInt32) :=
  match i.operand with
  | .targets offsets => return offsets
  | _ => badOperand i

/-- The method reference in an operand. -/
def methodOperand (i : Instruction) : FrameAction MethodRef :=
  match i.operand with
  | .method text => ofExcept ((MethodRef.parse text).mapError .format)
  | _ => badOperand i

/-- A type that is written in a body, closed with the generic arguments of the method. -/
def closedType (text : String) : FrameAction TypeName := do
  let t ← ofExcept ((TypeName.parse text).mapError .format)
  ofExcept ((← get).context.close t)

/-- The closed type in an operand. -/
def typeOperand (i : Instruction) : FrameAction TypeName :=
  match i.operand with
  | .type text => closedType text
  | _ => badOperand i

/-- The closed type that the token in an operand names. -/
def tokenOperand (i : Instruction) : FrameAction TypeName :=
  match i.operand with
  | .token text => closedType text
  | _ => badOperand i

/-- The field in an operand, which has been looked up. -/
def fieldOperand (scope : Scope) (i : Instruction) : FrameAction FieldHandle :=
  match i.operand with
  | .field text => do
    let f ← ofExcept ((FieldRef.parse text).mapError .format)
    ofMachine (Machine.resolve (scope.symbols.resolveField f (← get).context))
  | _ => badOperand i

end FrameAction

end Hotswap
