import Hotswap.Proofs.Machine.Calls

/-!
# Values below the operands

An instruction pops its operands from the top of the stack and does not look at what is below them.
This file says so of every instruction and of every number of rounds (`stays_above`): unless a step
runs out of operands, the same step with more values below the stack gives the same flow or stops
for the same reason, leaves the same frame and the same state, and has left the values where they
were. There is no list of operands for each opcode in the statement. How many values an instruction
pops can depend on the method that a reference is bound to, and on what the instruction before it
has left to be dropped.

`KeepsBelow` is this property of a computation in a frame. The rules follow the monad; what is
looked up in a frame must not be its stack (`KeepsBelow.get_bind`), so only the three operations
that pop are looked into.
-/

namespace Hotswap

open FrameAction

variable {α β : Type}

/-! ## Frames and outcomes -/

/-- A frame with more values below its operands. -/
def Frame.above (f : Frame) (below : List Value) : Frame := { f with stack := f.stack ++ below }

/-- A reason to stop that is not the lack of operands. -/
def Stop.Supplied : Stop → Prop
  | .failed (.stackUnderflow _ _) => False
  | _ => True

namespace FrameAction

/-- An outcome of a computation in a frame that has not run out of operands. -/
def Supplied : Except Stop (α × Frame) × State → Prop
  | (.ok _, _) => True
  | (.error stop, _) => stop.Supplied

/-- An outcome with more values below the operands that are left. A computation that has stopped has
no frame left. -/
def above (below : List Value) :
    Except Stop (α × Frame) × State → Except Stop (α × Frame) × State
  | (.ok (a, f), s) => (.ok (a, f.above below), s)
  | (.error stop, s) => (.error stop, s)

/-- A computation that, unless it runs out of operands, does the same with more values below them
and leaves those where they are. -/
def KeepsBelow (x : FrameAction α) : Prop :=
  ∀ (f : Frame) (s : State) (below : List Value), Supplied (x f s) →
    x (f.above below) s = above below (x f s)

namespace KeepsBelow

variable {x : FrameAction α}

/-! ### The rules of the monad -/

/-- What does nothing keeps what lies below. -/
theorem pure (a : α) : KeepsBelow (pure a : FrameAction α) := fun _ _ _ _ => rfl

/-- Two computations one after another keep it if each of them does. -/
theorem bind {k : α → FrameAction β} (hx : KeepsBelow x) (hk : ∀ a, KeepsBelow (k a)) :
    KeepsBelow (x >>= k) := by
  intro f s below h
  rw [bind_apply] at h
  have hfirst : Supplied (x f s) := by
    rcases hxs : x f s with ⟨stop | r, s'⟩
    · rw [hxs] at h
      exact h
    · trivial
  rw [bind_apply, bind_apply, hx f s below hfirst]
  rcases hxs : x f s with ⟨stop | ⟨a, f'⟩, s'⟩
  · rfl
  · rw [hxs] at h
    exact hk a f' s' below h

/-- A result that is changed afterwards makes no difference. -/
theorem map {g : α → β} (hx : KeepsBelow x) : KeepsBelow (g <$> x) := by
  rw [map_eq_pure_bind]
  exact hx.bind fun a => .pure (g a)

/-- Nor does one that is not looked at. -/
theorem discard (hx : KeepsBelow x) : KeepsBelow (discard x) := hx.map

/-- What is looked up in the frame must not depend on the values below. -/
theorem get_bind {k : Frame → FrameAction β} (h : ∀ f below, k (f.above below) = k f)
    (hk : ∀ f, KeepsBelow (k f)) : KeepsBelow (get >>= k) := by
  intro f s below hs
  show k (f.above below) (f.above below) s = above below (k f f s)
  rw [h]
  exact hk f f s below hs

/-- A change of the frame that does not touch what lies below keeps it. -/
theorem modify {g : Frame → Frame} (h : ∀ f below, g (f.above below) = (g f).above below) :
    KeepsBelow (modify g) := by
  intro f s below _
  exact congrArg (fun f' => (Except.ok ((), f'), s)) (h f below)

/-- The machine does not know the stack. -/
theorem ofMachine (m : Machine α) : KeepsBelow (ofMachine m) := by
  intro f s below _
  unfold FrameAction.ofMachine
  rw [Machine.bind_apply, Machine.bind_apply]
  rcases m s with ⟨stop | a, s'⟩ <;> rfl

/-- An error keeps what lies below. -/
theorem fail (e : Error) : KeepsBelow (fail e : FrameAction α) := ofMachine _

/-- So does a result that is there already. -/
theorem ofExcept (r : Except Error α) : KeepsBelow (ofExcept r) := ofMachine _

/-- So does a malformed descriptor. -/
theorem malformed (reason : Malformation) : KeepsBelow (malformed reason : FrameAction α) :=
  get_bind (fun _ _ => rfl) fun _ => fail _

/-! ### The stack -/

/-- A value is pushed above what lies below. -/
theorem push (v : Value) : KeepsBelow (push v) := modify fun _ _ => rfl

/-- An operand is popped only if it lies above. -/
theorem pop : KeepsBelow pop := by
  intro f s below h
  obtain ⟨d, context, args, locals, stack, offset, pending⟩ := f
  cases stack with
  | nil => exact False.elim h
  | cons v rest => rfl

/-- So are several. -/
theorem popMany (count : Nat) : KeepsBelow (popMany count) := by
  intro f s below h
  by_cases hcount : count ≤ f.stack.length
  · have hmore : count ≤ (f.above below).stack.length := by
      apply hcount.trans
      simp [Frame.above]
    have htake : (f.stack ++ below).take count = f.stack.take count :=
      List.take_append_of_le_length hcount
    have hdrop : (f.stack ++ below).drop count = f.stack.drop count ++ below :=
      List.drop_append_of_le_length hcount
    rw [popMany_apply hmore, popMany_apply hcount]
    simp only [Frame.above, above, htake, hdrop]
  · have hpop : FrameAction.popMany count f s = FrameAction.underflow f s := by
      rw [FrameAction.popMany, FrameAction.get_bind, if_pos (not_le.1 hcount)]
    rw [hpop] at h
    exact False.elim h

/-- So are two. -/
theorem popPair : KeepsBelow popPair := pop.bind fun _ => pop.bind fun _ => .pure _

/-! ### Arguments and locals -/

/-- Arguments are read without the stack. -/
theorem loadArg (slot : Nat) : KeepsBelow (loadArg slot) := by
  refine get_bind (fun _ _ => rfl) fun f => ?_
  split
  · exact .pure _
  · exact malformed _

/-- They are stored without it. -/
theorem storeArg (slot : Nat) (v : Value) : KeepsBelow (storeArg slot v) := by
  refine get_bind (fun _ _ => rfl) fun f => ?_
  split
  · exact modify fun _ _ => rfl
  · exact malformed _

/-- Locals are read without the stack. -/
theorem loadLocal (slot : Nat) : KeepsBelow (loadLocal slot) := by
  refine get_bind (fun _ _ => rfl) fun f => ?_
  split
  · exact .pure _
  · exact malformed _

/-- They are stored without it. -/
theorem storeLocal (slot : Nat) (v : Value) : KeepsBelow (storeLocal slot v) := by
  refine get_bind (fun _ _ => rfl) fun f => ?_
  split
  · exact modify fun _ _ => rfl
  · exact malformed _

/-! ### The operand -/

variable (i : Instruction)

/-- A slot in the operand is read without the stack. -/
theorem slotOperand : KeepsBelow (slotOperand i) := by
  unfold FrameAction.slotOperand
  split
  · exact .pure _
  · split
    · exact malformed _
    · exact .pure _
  · exact malformed _

/-- So is one that may be part of the opcode. -/
theorem slotOf (slot : Option Nat) : KeepsBelow (slotOf slot i) := by
  unfold FrameAction.slotOf
  split
  · exact .pure _
  · exact slotOperand i

/-- So is an integer. -/
theorem intOperand : KeepsBelow (intOperand i) := by
  unfold FrameAction.intOperand
  split
  · exact .pure _
  · exact malformed _

/-- So is a floating-point number. -/
theorem floatOperand : KeepsBelow (floatOperand i) := by
  unfold FrameAction.floatOperand
  split
  · exact .pure _
  · exact .pure _
  · exact malformed _

/-- So is a string. -/
theorem stringOperand : KeepsBelow (stringOperand i) := by
  unfold FrameAction.stringOperand
  split
  · exact .pure _
  · exact malformed _

/-- So is a branch target. -/
theorem targetOperand : KeepsBelow (targetOperand i) := by
  unfold FrameAction.targetOperand
  split
  · exact .pure _
  · exact malformed _

/-- So are several. -/
theorem targetsOperand : KeepsBelow (targetsOperand i) := by
  unfold FrameAction.targetsOperand
  split
  · exact .pure _
  · exact malformed _

/-- So is a method reference. -/
theorem methodOperand : KeepsBelow (methodOperand i) := by
  unfold FrameAction.methodOperand
  split
  · exact ofExcept _
  · exact malformed _

/-- A type is closed without the stack. -/
theorem closedType (text : String) : KeepsBelow (closedType text) :=
  (ofExcept _).bind fun _ => get_bind (fun _ _ => rfl) fun _ => ofExcept _

/-- So is a type in the operand. -/
theorem typeOperand : KeepsBelow (typeOperand i) := by
  unfold FrameAction.typeOperand
  split
  · exact closedType _
  · exact malformed _

/-- So is a type that a token stands for. -/
theorem tokenOperand : KeepsBelow (tokenOperand i) := by
  unfold FrameAction.tokenOperand
  split
  · exact closedType _
  · exact malformed _

/-- A field is resolved without the stack. -/
theorem fieldOperand (scope : Scope) : KeepsBelow (fieldOperand scope i) := by
  unfold FrameAction.fieldOperand
  split
  · exact (ofExcept _).bind fun _ => get_bind (fun _ _ => rfl) fun _ => ofMachine _
  · exact malformed _

end KeepsBelow

end FrameAction

/-! ## Instructions -/

namespace FrameAction.KeepsBelow

variable {scope : Scope} {callee : Callee} {i : Instruction}

/-- A result is pushed unless it is not to be used. -/
theorem pushUnless (void : Bool) (v : Value) : KeepsBelow (unless void do FrameAction.push v) := by
  cases void
  · exact push v
  · exact .pure _

/-- The `Invoke` of a delegate takes its arguments from above. -/
theorem invokeDelegate (ref : MethodRef) : KeepsBelow (Step.invokeDelegate callee ref) := by
  refine (popMany _).bind fun args => pop.bind fun target => ?_
  split
  · exact (ofMachine _).bind fun result => pushUnless _ result
  · exact fail _
  · exact fail _

/-- Asking for such an `Invoke` takes nothing. -/
theorem isDelegateInvoke (ref : MethodRef) : KeepsBelow (Step.isDelegateInvoke scope ref) := by
  unfold Step.isDelegateInvoke
  split
  · refine get_bind (fun _ _ => rfl) fun f => (ofExcept _).bind fun t => (ofMachine _).bind ?_
    intro r
    split
    · exact .pure _
    · exact .pure _
  · exact .pure _

/-- Binding a reference takes nothing. -/
theorem bound (ref : MethodRef) : KeepsBelow (Step.bound ref) :=
  get_bind (fun _ _ => rfl) fun _ => ofExcept _

/-- A receiver is taken from above. -/
theorem popReceiver (m : Method) : KeepsBelow (Step.popReceiver m) := by
  unfold Step.popReceiver
  split
  · exact .pure _
  · exact pop.map

/-- A call takes its receiver and its arguments from above. -/
theorem call : KeepsBelow (Step.call scope callee i) := by
  refine (methodOperand i).bind fun ref => (isDelegateInvoke ref).bind fun isInvoke => ?_
  split
  · exact invokeDelegate ref
  · exact (bound ref).bind fun b => (ofMachine _).bind fun m => (popMany _).bind fun args =>
      (popReceiver m).bind fun receiver => (ofMachine _).bind fun result => pushUnless _ result

/-- The target that the function before left to be dropped is an operand too. -/
theorem newDelegate : KeepsBelow Step.newDelegate := by
  refine pop.bind fun v => ?_
  split
  · refine get_bind (fun _ _ => rfl) fun f => ?_
    split
    · exact (modify fun _ _ => rfl).bind fun _ => pop.discard.bind fun _ => push _
    · exact push _
  · exact malformed _

/-- So does the making of an object. -/
theorem newObject : KeepsBelow (Step.newObject scope callee i) := by
  refine (methodOperand i).bind fun ref => get_bind (fun _ _ => rfl) fun f => ?_
  refine (ofExcept _).bind fun t => (ofMachine _).bind fun handle => ?_
  split
  · exact newDelegate
  · exact (bound ref).bind fun b => (popMany _).bind fun args => (ofMachine _).bind push

/-- A function takes its target from above. -/
theorem loadFunction (virtual : Bool) : KeepsBelow (Step.loadFunction scope virtual i) :=
  (methodOperand i).bind fun ref => (bound ref).bind fun _ => (ofMachine _).bind fun m =>
    (popReceiver m).bind fun _ => (modify fun _ _ => rfl).bind fun _ =>
      (ofMachine _).bind fun _ => push _

/-- An index is taken from above. -/
theorem popIndex : KeepsBelow Step.popIndex := pop.bind fun _ => ofExcept _

/-- So is an array. -/
theorem popArray (operation : String) : KeepsBelow (Step.popArray operation) := by
  refine pop.bind fun v => ?_
  split
  · exact .pure _
  · exact fail _
  · exact fail _

/-- The heap is read without the stack. -/
theorem heap : KeepsBelow Step.heap := ofMachine _

/-- An array is made with a length from above. -/
theorem newArray : KeepsBelow (Step.newArray scope i) :=
  pop.bind fun _ => (typeOperand i).bind fun _ => (ofExcept _).bind fun _ => (ofMachine _).bind push

/-- An item is stored with three operands from above. -/
theorem storeItem : KeepsBelow Step.storeItem :=
  pop.bind fun _ => popIndex.bind fun _ => (popArray _).bind fun _ => heap.bind fun _ =>
    (ofExcept _).bind fun _ => ofMachine _

/-- A value is taken from above, with a type in the operand. -/
theorem popWithType : KeepsBelow (Step.popWithType scope i) :=
  pop.bind fun _ => (typeOperand i).bind fun _ => (ofMachine _).bind fun _ => .pure _

/-- One case for each effect: what it does to the frame is read off its text. -/
theorem perform (e : Effect) : KeepsBelow (perform scope callee i e) := by
  cases e with
  | skip => exact .pure _
  | loadArg slot => exact (slotOf i slot).bind fun n => (loadArg n).bind push
  | storeArg => exact (slotOperand i).bind fun n => pop.bind (storeArg n)
  | loadLocal slot => exact (slotOf i slot).bind fun n => (loadLocal n).bind push
  | storeLocal slot => exact (slotOf i slot).bind fun n => pop.bind (storeLocal n)
  | push v => exact push v
  | pushInt32 =>
    refine (intOperand i).bind fun n => ?_
    split
    · exact push _
    · exact malformed _
  | pushInt64 => exact (intOperand i).bind fun n => push _
  | pushFloat32 => exact (floatOperand i).bind fun x => push _
  | pushFloat64 => exact (floatOperand i).bind fun x => push _
  | pushString => exact (stringOperand i).bind fun text => push _
  | dup => exact pop.bind fun v => (push v).bind fun _ => push v
  | pop => exact pop.discard
  | call => exact call
  | newObject => exact newObject
  | loadFunction virtual => exact loadFunction virtual
  | compare test => exact popPair.bind fun p => (ofExcept _).bind fun b => push _
  | binary operation => exact popPair.bind fun p => (ofExcept _).bind push
  | unary operation => exact pop.bind fun v => (ofExcept _).bind push
  | cast => exact popWithType.bind fun p => (ofExcept _).bind push
  | isInstance => exact popWithType.bind fun p => push _
  | loadField =>
    exact (fieldOperand i scope).bind fun f => pop.bind fun _ => (ofMachine _).bind push
  | storeField => exact (fieldOperand i scope).bind fun f => popPair.bind fun p => ofMachine _
  | loadStatic => exact (fieldOperand i scope).bind fun f => (ofMachine _).bind push
  | storeStatic => exact (fieldOperand i scope).bind fun f => pop.bind fun v => ofMachine _
  | newArray => exact newArray
  | arrayLength => exact (popArray _).bind fun r => heap.bind fun h => push _
  | loadItem =>
    exact popIndex.bind fun index => (popArray _).bind fun r => heap.bind fun h =>
      (ofExcept _).bind push
  | storeItem => exact storeItem
  | loadToken => exact (tokenOperand i).bind fun t => (ofMachine _).discard.bind fun _ => push _
  | throw => exact pop.bind fun v => heap.bind fun h => fail _
  | rethrow => exact fail _
  | unsupported => exact get_bind (fun _ _ => rfl) fun f => fail _

/-- A branch takes nothing. -/
theorem branch (taken : Bool) : KeepsBelow (Step.branch i taken) := by
  unfold Step.branch
  split
  · exact (targetOperand i).map
  · exact .pure _

/-- A multi-way branch takes its number from above. -/
theorem multiway : KeepsBelow (Step.multiway i) := by
  refine pop.bind fun v => (targetsOperand i).bind fun targets => (ofExcept _).bind fun n => ?_
  split
  · exact .pure _
  · exact .pure _

/-- **A transfer of control keeps what lies below.** -/
theorem transfer (t : Transfer) : KeepsBelow (transfer i t) := by
  cases t with
  | ret =>
    refine get_bind (fun _ _ => rfl) fun f => ?_
    split
    · exact .pure _
    · exact pop.map
  | jump => exact branch true
  | branchIf test => exact pop.bind fun v => (ofExcept _).bind branch
  | branchOn test => exact popPair.bind fun p => (ofExcept _).bind branch
  | multiway => exact multiway

/-- Every instruction leaves alone what is below its operands. -/
theorem step : KeepsBelow (step scope callee i) := by
  unfold Hotswap.step
  split
  · exact (perform _).bind fun _ => .pure _
  · exact transfer _

end FrameAction.KeepsBelow

/-! ## Rounds -/

/-- Several rounds of a frame, or as many as there are before control leaves it. -/
def rounds (scope : Scope) (callee : Callee) : Nat → FrameAction (Option Value)
  | 0 => return none
  | count + 1 => do
    match ← round scope callee with
    | none => rounds scope callee count
    | some v => return some v

/-- The loop is as many rounds as there is fuel, after which control must have left the frame. -/
theorem loop_eq_rounds (scope : Scope) (callee : Callee) (fuel : Nat) :
    loop scope callee fuel = (do
      match ← rounds scope callee fuel with
      | none => throw .outOfFuel
      | some v => return v) := by
  induction fuel with
  | zero => rfl
  | succ fuel ih =>
    rw [loop_eq_round, rounds, bind_assoc]
    congr 1
    funext r
    cases r with
    | none => exact ih
    | some v => rfl

namespace FrameAction.KeepsBelow

variable {scope : Scope} {callee : Callee}

/-- Going to an offset takes nothing. -/
theorem enter (offset : UInt32) (dangling : Malformation) : KeepsBelow (enter offset dangling) := by
  refine get_bind (fun _ _ => rfl) fun f => ?_
  split
  · exact modify fun _ _ => rfl
  · exact malformed _

/-- Nor does going on to the next instruction. -/
theorem advance (i : Instruction) : KeepsBelow (advance i) := by
  unfold Hotswap.advance
  split
  · exact enter _ _
  · exact malformed _

/-- **A round keeps what lies below.** -/
theorem round : KeepsBelow (round scope callee) := by
  refine get_bind (fun _ _ => rfl) fun f => ?_
  split
  · exact malformed _
  · refine step.bind fun flow => ?_
    cases flow with
    | next => exact (advance _).bind fun _ => .pure _
    | jump target => exact (enter _ _).bind fun _ => .pure _
    | leave v => exact .pure _

/-- So does any number of rounds. -/
theorem rounds (count : Nat) : KeepsBelow (rounds scope callee count) := by
  induction count with
  | zero => exact .pure _
  | succ count ih =>
    refine round.bind fun r => ?_
    cases r with
    | none => exact ih
    | some v => exact .pure _

/-- So does a whole run. -/
theorem loop (fuel : Nat) : KeepsBelow (loop scope callee fuel) := by
  rw [loop_eq_rounds]
  refine (rounds fuel).bind fun r => ?_
  cases r with
  | none => exact fun _ _ _ _ => rfl
  | some v => exact .pure _

end FrameAction.KeepsBelow

/-- **Instructions touch only the operands that they pop.** A step that does not run out of operands
does the same with any values below the stack: the same flow or the same reason to stop, the same
frame with the values still at the bottom, and the same state. So does every number of rounds, and
so does a run to its end. -/
theorem stays_above (scope : Scope) (callee : Callee) (f : Frame) (s : State)
    (below : List Value) :
    (∀ i, Supplied (step scope callee i f s) →
      step scope callee i (f.above below) s = above below (step scope callee i f s)) ∧
    (∀ count, Supplied (rounds scope callee count f s) →
      rounds scope callee count (f.above below) s = above below (rounds scope callee count f s)) ∧
    ∀ fuel, Supplied (loop scope callee fuel f s) →
      loop scope callee fuel (f.above below) s = above below (loop scope callee fuel f s) :=
  ⟨fun _ => KeepsBelow.step f s below, fun count => KeepsBelow.rounds count f s below,
    fun fuel => KeepsBelow.loop fuel f s below⟩

/-- A method that counts its operand down to zero and gives that back. -/
def countdownMethod : Descriptor where
  name := ⟨.plain "T", "Countdown", [], []⟩
  isStatic := true
  parameters := []
  returnType := .plain "System.Int32"
  body := {
    maxStack := 2
    locals := []
    instructions := ⟨[(0, ⟨.dup, .none, some 1⟩), (1, ⟨.brfalseS, .target 5, some 2⟩),
      (2, ⟨.ldcI4M1, .none, some 3⟩), (3, ⟨.add, .none, some 4⟩), (4, ⟨.brS, .target 0, none⟩),
      (5, ⟨.ret, .none, none⟩)], by decide⟩ }

/-- A string below the operand is still there when the countdown has come to its end. -/
theorem stays_above_countdown :
    let scope : Scope := ⟨{}, ∅⟩
    let f : Frame := ⟨countdownMethod, {}, [], [], [.int32 2], 0, false⟩
    Supplied (rounds scope (call scope 0) 13 f {}) ∧
      rounds scope (call scope 0) 13 (f.above [.string "kept"]) {} =
        (.ok (some (.int32 0), ⟨countdownMethod, {}, [], [], [.string "kept"], 5, false⟩), {}) := by
  intro scope f
  have hrun : rounds scope (call scope 0) 13 f {} =
    (.ok (some (.int32 0), ⟨countdownMethod, {}, [], [], [], 5, false⟩), {}) := rfl
  have hsupplied : Supplied (rounds scope (call scope 0) 13 f {}) := hrun ▸ trivial
  refine ⟨hsupplied, ?_⟩
  rw [(stays_above scope (call scope 0) f {} [.string "kept"]).2.1 13 hsupplied, hrun]
  rfl

end Hotswap
