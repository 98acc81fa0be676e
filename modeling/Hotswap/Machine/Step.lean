import Hotswap.Action
import Hotswap.Machine.Frame

/-!
# Steps

`step` runs one instruction in a frame and says where control goes next. What an instruction calls
is run by a `Callee`, which is a parameter: what an instruction does to its own frame does not
depend on how its callees are run. There are two ways to call, a method that has just been bound and
a delegate, which was bound when it was made.
-/

namespace Hotswap

/-- Runs what instructions and programs of the host call. -/
structure Callee where
  /-- Runs a method with a receiver, if there is one, and arguments. -/
  method : Method → Option Value → List Value → Machine Value
  /-- Runs a delegate with arguments. -/
  delegate : Delegate → List Value → Machine Value

instance : CoeFun Callee fun _ => Method → Option Value → List Value → Machine Value :=
  ⟨Callee.method⟩

/-- A callee that runs a delegate by running the method of the delegate with its receiver. -/
def Callee.ofMethod (run : Method → Option Value → List Value → Machine Value) : Callee where
  method := run
  delegate d args := run d.method d.receiver args

/-- Where control goes after an instruction. -/
inductive Flow where
  /-- To the instruction that follows. -/
  | next
  /-- To a branch target. -/
  | jump (target : UInt32)
  /-- Back to the caller. -/
  | leave (result : Value)

namespace Step

open FrameAction

/-! ## Calls -/

/-- Calls a delegate. -/
def callDelegate (callee : Callee) (address : Nat) (args : List Value) : Machine Value := do
  match (← get).memory.heap.delegate? address with
  | some d => callee.delegate d args
  | none => Machine.fail (.nullReference "Invoke")

/-- Calls the delegate below the arguments. -/
def invokeDelegate (callee : Callee) (ref : MethodRef) : FrameAction Unit := do
  let args ← popMany ref.signature.parameters.length
  match ← pop with
  | .delegate address =>
    let result ← ofMachine (callDelegate callee address args)
    unless ref.returnsVoid do push result
  | .null => fail (.nullReference "Invoke")
  | v => fail (.invalidCast v.typeName ref.signature.declaringType.render)

/-- Whether a reference is to the `Invoke` of a type of delegates. -/
def isDelegateInvoke (scope : Scope) (ref : MethodRef) : FrameAction Bool := do
  if ref.signature.name = "Invoke" then
    let t ← ofExcept ((← get).context.close ref.signature.declaringType)
    match ← ofMachine (Machine.attempt (Machine.resolve (scope.symbols.resolveType t))) with
    | .ok handle => return handle.isDelegate
    | .error _ => return false
  else return false

/-- Binds a reference in the frame. -/
def bound (ref : MethodRef) : FrameAction BoundMethod := do
  ofExcept (BoundMethod.ofRef ref (← get).context)

/-- The receiver of a method, if it has one. -/
def popReceiver (m : Method) : FrameAction (Option Value) :=
  if m.isStatic then return none else some <$> pop

/-- Calls the method in the operand. -/
def call (scope : Scope) (callee : Callee) (i : Instruction) : FrameAction Unit := do
  let ref ← methodOperand i
  if ← isDelegateInvoke scope ref then invokeDelegate callee ref
  else
    let m ← ofMachine (scope.method (← bound ref))
    let args ← popMany m.paramCount
    let receiver ← popReceiver m
    let result ← ofMachine (callee m receiver args)
    unless m.returnsVoid do push result

/-- Makes a delegate of the function on top, and drops the target below it if there is one. -/
def newDelegate : FrameAction Unit := do
  match ← pop with
  | v@(.delegate _) =>
    if (← get).pendingTarget then
      modify fun f => { f with pendingTarget := false }
      discard pop
    push v
  | v => malformed (.notAFunction v.typeName)

/-- Makes an object. A constructor in a descriptor is given an object without fields; one of the
host makes the object itself. A class without a registered constructor can be made without
arguments. -/
def construct (scope : Scope) (callee : Callee) (type : TypeName) (b : BoundMethod)
    (args : List Value) : Machine Value := do
  match ← scope.method? b with
  | some constructor =>
    if constructor.isPatched then
      let v ← Machine.newObject type
      discard (callee constructor (some v) args)
      return v
    else callee constructor none args
  | none =>
    if args.isEmpty then Machine.newObject type
    else Machine.fail (.resolution b.signature.render)

/-- Makes an object, or a delegate, with the constructor in the operand. -/
def newObject (scope : Scope) (callee : Callee) (i : Instruction) : FrameAction Unit := do
  let ref ← methodOperand i
  let t ← ofExcept ((← get).context.close ref.signature.declaringType)
  let handle ← ofMachine (Machine.resolve (scope.symbols.resolveType t))
  if handle.isDelegate then newDelegate
  else
    let b ← bound ref
    let args ← popMany b.signature.parameters.length
    push (← ofMachine (construct scope callee handle.name b args))

/-- Pushes the method in the operand as a function, with the receiver that it pops. -/
def loadFunction (scope : Scope) (virtual : Bool) (i : Instruction) : FrameAction Unit := do
  let m ← ofMachine (scope.method (← bound (← methodOperand i)))
  let receiver ← popReceiver m
  modify fun f => { f with pendingTarget := virtual || m.isStatic }
  let address ← ofMachine (Machine.onMemory fun memory =>
    let (address, heap) := memory.heap.newDelegate ⟨m, receiver⟩
    (address, { memory with heap }))
  push (.delegate address)

/-! ## Fields -/

/-- What a field starts as. -/
def fieldDefault (scope : Scope) (f : FieldHandle) : Machine Value :=
  match f.fieldType with
  | some t => scope.defaultValue t
  | none => pure .null

/-- Reads a field of a target. -/
def loadField (scope : Scope) (f : FieldHandle) (target : Value) : Machine Value :=
  match f.accessor, target with
  | some a, _ => Machine.onMemory? (a.get target)
  | none, .object r => do
    match (← get).memory.heap.field? r f.name with
    | some v => return v
    | none => fieldDefault scope f
  | none, .null => Machine.fail (.nullReference "ldfld")
  | none, _ => Machine.fail (.invalidCast target.typeName f.declaringType.render)

/-- Writes a field of a target. -/
def storeField (f : FieldHandle) (target v : Value) : Machine Unit :=
  match f.accessor, target with
  | some a, _ => Machine.onMemory? (a.set f.key target v)
  | none, .object r => modify fun s =>
    { s with memory := { s.memory with heap := s.memory.heap.setField r f.name v } }
  | none, .null => Machine.fail (.nullReference "stfld")
  | none, _ => Machine.fail (.invalidCast target.typeName f.declaringType.render)

/-- Reads a static field. -/
def loadStatic (scope : Scope) (f : FieldHandle) : Machine Value :=
  match f.accessor with
  | some a => Machine.onMemory? (a.get .null)
  | none => do
    match (← get).statics.get? f.key with
    | some v => return v
    | none => fieldDefault scope f

/-- Writes a static field. -/
def storeStatic (f : FieldHandle) (v : Value) : Machine Unit :=
  match f.accessor with
  | some a => Machine.onMemory? (a.set f.key .null v)
  | none => modify fun s => { s with statics := s.statics.insert f.key v }

/-! ## Arrays -/

/-- The integer of a value that an instruction takes as a number. -/
def integerFor (operator : String) (v : Value) : Except Error Int64 :=
  match v.integer? with
  | some n => .ok n
  | none => .error (.typeMismatch operator v.typeName "System.Int32")

/-- Pops an index. -/
def popIndex : FrameAction Int64 := do ofExcept (integerFor "[]" (← pop))

/-- Pops an array. -/
def popArray (operation : String) : FrameAction ArrayRef := do
  match ← pop with
  | .array r => return r
  | .null => fail (.nullReference operation)
  | v => fail (.invalidCast v.typeName "System.Array")

/-- The items of a new array that start like a given value. Each one that starts as an object is an
object of its own. -/
def freshItems (fill : Value) : Nat → Machine (Array Value)
  | 0 => pure #[]
  | count + 1 => do
    let items ← freshItems fill count
    match fill with
    | .object r => return items.push (← Machine.newObject r.type)
    | v => return items.push v

/-- Makes an array. -/
def makeArray (scope : Scope) (element : TypeName) (length : Int64) : Machine Value := do
  if length < 0 then Machine.fail (.indexOutOfRange length 0) else
  let fill ← scope.defaultValue element
  let items ← freshItems fill length.toNatClampNeg
  Machine.onMemory fun memory =>
    let (r, heap) := memory.heap.newArray element items
    (.array r, { memory with heap })

/-- Makes an array of the type in the operand. -/
def newArray (scope : Scope) (i : Instruction) : FrameAction Unit := do
  let length ← pop
  let element ← typeOperand i
  let length ← ofExcept (integerFor "newarr" length)
  push (← ofMachine (makeArray scope element length))

/-- The heap. -/
def heap : FrameAction Heap := ofMachine do return (← get).memory.heap

/-- Stores the value on top in the array below the index. -/
def storeItem : FrameAction Unit := do
  let v ← pop
  let index ← popIndex
  let r ← popArray "stelem"
  let heap ← ofExcept ((← heap).setItem r index v)
  ofMachine (modify fun s => { s with memory := { s.memory with heap } })

/-! ## Types and exceptions -/

/-- Pops a value and looks the type in the operand up. -/
def popWithType (scope : Scope) (i : Instruction) : FrameAction (Value × TypeHandle) := do
  let v ← pop
  let t ← typeOperand i
  return (v, ← ofMachine (Machine.resolve (scope.symbols.resolveType t)))

/-- The text of an exception: its type, with its message if it has one. -/
def describeException (h : Heap) (v : Value) : String :=
  let message := match v with
    | .object r => (h.field? r "message").or (h.field? r "_message")
    | _ => none
  match message with
  | some m => v.typeName ++ ": " ++ m.render
  | none => v.typeName

/-! ## Branches -/

/-- Goes to the target in the operand if a branch is taken. -/
def branch (i : Instruction) (taken : Bool) : FrameAction Flow :=
  if taken then .jump <$> targetOperand i else return .next

/-- Goes to the target at the position on top, if there is one. -/
def multiway (i : Instruction) : FrameAction Flow := do
  let v ← pop
  let targets ← targetsOperand i
  let position ← ofExcept (integerFor "switch" v)
  match (if position < 0 then none else targets[position.toNatClampNeg]?) with
  | some target => return .jump target
  | none => return .next

/-- What a truth value is on the stack. -/
def flagValue (b : Bool) : Value := .int32 (if b then 1 else 0)

end Step

open FrameAction Step

/-- Does what an instruction does to values. -/
def perform (scope : Scope) (callee : Callee) (i : Instruction) : Effect → FrameAction Unit
  | .skip => pure ()
  | .loadArg slot => do push (← loadArg (← slotOf slot i))
  | .storeArg => do
    let slot ← slotOperand i
    storeArg slot (← pop)
  | .loadLocal slot => do push (← loadLocal (← slotOf slot i))
  | .storeLocal slot => do
    let slot ← slotOf slot i
    storeLocal slot (← pop)
  | .push v => push v
  | .pushInt32 => do
    let n ← intOperand i
    if n.toInt32.toInt64 = n then push (.int32 n.toInt32) else malformed (.literalTooLarge n)
  | .pushInt64 => do push (.int64 (← intOperand i))
  | .pushFloat32 => do push (.float32 (← floatOperand i).toFloat32)
  | .pushFloat64 => do push (.float64 (← floatOperand i))
  | .pushString => do push (.string (← stringOperand i))
  | .dup => do
    let v ← pop
    push v
    push v
  | .pop => discard pop
  | .call => Step.call scope callee i
  | .newObject => Step.newObject scope callee i
  | .loadFunction virtual => Step.loadFunction scope virtual i
  | .compare test => do
    let (a, b) ← popPair
    push (flagValue (← ofExcept (test a b)))
  | .binary operation => do
    let (a, b) ← popPair
    push (← ofExcept (operation a b))
  | .unary operation => do
    let v ← pop
    push (← ofExcept (operation v))
  | .cast => do
    let (v, t) ← popWithType scope i
    push (← ofExcept (scope.symbols.cast v t))
  | .isInstance => do
    let (v, t) ← popWithType scope i
    push (if scope.symbols.isInstance v t then v else .null)
  | .loadField => do
    let f ← fieldOperand scope i
    push (← ofMachine (Step.loadField scope f (← pop)))
  | .storeField => do
    let f ← fieldOperand scope i
    let (target, v) ← popPair
    ofMachine (Step.storeField f target v)
  | .loadStatic => do
    let f ← fieldOperand scope i
    push (← ofMachine (Step.loadStatic scope f))
  | .storeStatic => do
    let f ← fieldOperand scope i
    ofMachine (Step.storeStatic f (← pop))
  | .newArray => Step.newArray scope i
  | .arrayLength => do
    let r ← popArray "ldlen"
    push (.int32 (Int32.ofNat ((← heap).items r).size))
  | .loadItem => do
    let index ← popIndex
    let r ← popArray "ldelem"
    push (← ofExcept ((← heap).item r index))
  | .storeItem => Step.storeItem
  | .loadToken => do
    let t ← tokenOperand i
    discard (ofMachine (Machine.resolve (scope.symbols.resolveType t)))
    push (.type t)
  | .throw => do
    let v ← pop
    fail (.thrown (describeException (← heap) v))
  | .rethrow => fail (.thrown "rethrow outside of a handler")
  | .unsupported => do fail (.unrecognizedOpcode i.opcode (← get).offset)

/-- Finds where an instruction sends control. -/
def transfer (i : Instruction) : Transfer → FrameAction Flow
  | .ret => do
    if (← get).descriptor.returnsVoid then return .leave .null else .leave <$> pop
  | .jump => branch i true
  | .branchIf test => do
    let v ← pop
    branch i (← ofExcept (test v))
  | .branchOn test => do
    let (a, b) ← popPair
    branch i (← ofExcept (test a b))
  | .multiway => Step.multiway i

/-- Runs an instruction. -/
def step (scope : Scope) (callee : Callee) (i : Instruction) : FrameAction Flow :=
  match i.opcode.action with
  | .effect e => do
    perform scope callee i e
    return .next
  | .transfer t => transfer i t

end Hotswap
