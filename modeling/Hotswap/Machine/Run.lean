import Hotswap.Machine.Step

/-!
# Runs

`execute` runs a descriptor from its first instruction until control leaves it, `Host.run` runs a
program of the host, and `call` runs a method of either kind. Fuel bounds how deeply calls are
nested and how many instructions each frame takes, so every run ends.
-/

namespace Hotswap

open FrameAction

/-! ## Descriptors -/

/-- Sends control to an offset, which must be that of an instruction. -/
def enter (offset : UInt32) (dangling : Malformation) : FrameAction Unit := do
  if (← get).descriptor.body.instructions.contains offset then
    modify fun f => { f with offset }
  else malformed dangling

/-- Goes to the instruction that follows. -/
def advance (i : Instruction) : FrameAction Unit :=
  match i.next with
  | some offset => enter offset (.danglingNext offset)
  | none => malformed .fallsOffEnd

/-- Runs instructions until control leaves the frame. -/
def loop (scope : Scope) (callee : Callee) : Nat → FrameAction Value
  | 0 => throw .outOfFuel
  | fuel + 1 => do
    let f ← get
    match f.descriptor.body.instructions.get? f.offset with
    | none => malformed .noInstruction
    | some i =>
      match ← step scope callee i with
      | .next => do
        advance i
        loop scope callee fuel
      | .jump target => do
        enter target (.danglingTarget target)
        loop scope callee fuel
      | .leave v => return v

/-- Runs a body, which must have an instruction. -/
def runFrame (scope : Scope) (callee : Callee) (fuel : Nat) : FrameAction Value := do
  if (← get).descriptor.body.entry?.isNone then malformed .emptyBody
  else loop scope callee fuel

/-- Runs a descriptor with the arguments of its slots. -/
def execute (scope : Scope) (callee : Callee) (fuel : Nat) (d : Descriptor)
    (context : GenericContext) (args : List Value) : Machine Value := do
  let f ← Frame.start scope d context args
  (runFrame scope callee fuel).run' f

/-- The arguments of the slots of a descriptor: the receiver comes first if it has one. -/
def slots (d : Descriptor) (receiver : Option Value) (args : List Value) : List Value :=
  if d.isStatic then args else receiver.getD .null :: args

/-! ## Programs of the host -/

/-- Runs a program of the host. -/
def Host.run {α : Type} (scope : Scope) (callee : Callee) : Host α → Machine α
  | .done a => pure a
  | .fail e => Machine.fail e
  | .read next => do
    let s ← get
    (next s.memory).run scope callee
  | .write memory next => do
    modify fun s => { s with memory }
    next.run scope callee
  | .call s receiver args next => do
    let r ← Machine.attempt do
      callee (← scope.method (.ofSignature s none)) receiver args
    (next r).run scope callee
  | .callDelegate address args next => do
    let r ← Machine.attempt (Step.callDelegate callee address args)
    (next r).run scope callee
  | .reload catalogue next => do
    let s ← get
    modify fun s => { s with catalogue }
    (next s.catalogue).run scope callee

/-! ## Methods -/

/-- Runs a method. A delegate is run as its method is. -/
def call (scope : Scope) : Nat → Callee
  | 0 => .ofMethod fun _ _ _ => throw .outOfFuel
  | fuel + 1 => .ofMethod fun m receiver args =>
    match m.target with
    | .patched d => execute scope (call scope fuel) fuel d m.context (slots d receiver args)
    | .host h =>
      match scope.symbols.code? h with
      | some code =>
        (code ⟨m.signature, m.context, receiver.getD .null, args⟩).run scope (call scope fuel)
      | none => Machine.fail (.resolution m.signature.render)

/-- Runs the method of a closed signature. -/
def invoke (scope : Scope) (fuel : Nat) (s : Signature) (receiver : Option Value)
    (args : List Value) : Machine Value := do
  call scope fuel (← scope.method (.ofSignature s none)) receiver args

end Hotswap
