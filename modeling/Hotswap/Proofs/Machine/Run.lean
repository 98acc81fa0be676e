import Hotswap.Proofs.Machine.Contract

/-!
# Rounds of a run

A run of a descriptor is a loop, and `loop_succ` unfolds one round of it: the instruction where
control stands, then the loop again from where that instruction sends control. For an instruction
that works on values a round is what `perform` does and a step to the next offset (`loop_effect`),
or the error of `perform` (`loop_effect_error`).

Below these are the effects of straight-line code on the stack, as equations, and that of a call.
-/

namespace Hotswap

open FrameAction

variable {scope : Scope} {callee : Callee} {f f' : Frame} {i : Instruction} {s s' : State}

/-- One round of a run: the instruction at the offset, then control goes where it sends it. -/
theorem loop_succ (fuel : Nat) {f : Frame} {i : Instruction}
    (hi : f.descriptor.body.instructions.get? f.offset = some i) :
    loop scope callee (fuel + 1) f = (do
      let r ← step scope callee i f
      match r.1 with
      | .next => do
        let r ← advance i r.2
        loop scope callee fuel r.2
      | .jump target => do
        let r ← enter target (.danglingTarget target) r.2
        loop scope callee fuel r.2
      | .leave v => return (v, r.2) : Machine (Value × Frame)) := by
  rw [loop, FrameAction.get_bind, hi]
  show (step scope callee i f >>= _) = _
  congr 1
  funext r
  obtain ⟨flow, f'⟩ := r
  cases flow <;> rfl

/-- Control enters an offset at which there is an instruction. -/
theorem enter_apply {offset : UInt32} {dangling : Malformation}
    (hin : f.descriptor.body.instructions.contains offset = true) :
    enter offset dangling f s = (.ok ((), { f with offset }), s) := by
  show (if f.descriptor.body.instructions.contains offset then modify fun f => { f with offset }
    else malformed dangling : FrameAction Unit) f s = _
  rw [if_pos hin]
  rfl

/-- A round from which control goes to the next instruction. -/
theorem loop_next (fuel : Nat) {next : UInt32}
    (hi : f.descriptor.body.instructions.get? f.offset = some i)
    (hstep : step scope callee i f s = (.ok (.next, f'), s')) (hnext : i.next = some next)
    (hin : f'.descriptor.body.instructions.contains next = true) :
    loop scope callee (fuel + 1) f s = loop scope callee fuel { f' with offset := next } s' := by
  have hadvance : advance i f' s' = (.ok ((), { f' with offset := next }), s') := by
    unfold advance
    rw [hnext]
    exact enter_apply hin
  rw [loop_succ fuel hi, Machine.bind_apply, hstep]
  show (advance i f' >>= fun r => loop scope callee fuel r.2 : Machine (Value × Frame)) s' = _
  rw [Machine.bind_apply, hadvance]

/-- A round from which control goes to a branch target. -/
theorem loop_jump (fuel : Nat) {target : UInt32}
    (hi : f.descriptor.body.instructions.get? f.offset = some i)
    (hstep : step scope callee i f s = (.ok (.jump target, f'), s'))
    (hin : f'.descriptor.body.instructions.contains target = true) :
    loop scope callee (fuel + 1) f s = loop scope callee fuel { f' with offset := target } s' := by
  rw [loop_succ fuel hi, Machine.bind_apply, hstep]
  show (enter target (.danglingTarget target) f' >>= fun r => loop scope callee fuel r.2 :
    Machine (Value × Frame)) s' = _
  rw [Machine.bind_apply, enter_apply hin]

/-- A round with an effect on values. -/
theorem loop_effect (fuel : Nat) {e : Effect} {next : UInt32}
    (hi : f.descriptor.body.instructions.get? f.offset = some i)
    (he : i.opcode.action = .effect e) (hnext : i.next = some next)
    (hin : f.descriptor.body.instructions.contains next = true)
    (hperform : perform scope callee i e f s = (.ok ((), f'), s'))
    (hd : f'.descriptor = f.descriptor) :
    loop scope callee (fuel + 1) f s = loop scope callee fuel { f' with offset := next } s' := by
  have hstep : step scope callee i f s = (.ok (.next, f'), s') := by
    unfold step
    rw [he]
    show ((perform scope callee i e >>= fun _ => pure .next) : FrameAction Flow) f s = _
    rw [FrameAction.bind_apply, hperform]
    rfl
  apply loop_next fuel hi hstep hnext
  rw [hd]
  exact hin

/-- A round that fails. -/
theorem loop_effect_error (fuel : Nat) {e : Effect} {stop : Stop}
    (hi : f.descriptor.body.instructions.get? f.offset = some i)
    (he : i.opcode.action = .effect e)
    (hperform : perform scope callee i e f s = (.error stop, s')) :
    loop scope callee (fuel + 1) f s = (.error stop, s') := by
  have hstep : step scope callee i f s = (.error stop, s') := by
    unfold step
    rw [he]
    show ((perform scope callee i e >>= fun _ => pure .next) : FrameAction Flow) f s = _
    rw [FrameAction.bind_apply, hperform]
  rw [loop_succ fuel hi, Machine.bind_apply, hstep]

/-- The last round of a method with a result, which is on top of the stack. -/
theorem loop_ret (fuel : Nat) {v : Value} {rest : List Value}
    (hi : f.descriptor.body.instructions.get? f.offset = some i)
    (hret : i.opcode = .ret) (hvoid : f.descriptor.returnsVoid = false)
    (hstack : f.stack = v :: rest) :
    loop scope callee (fuel + 1) f s = (.ok (v, { f with stack := rest }), s) := by
  have hstep : step scope callee i f s = (.ok (.leave v, { f with stack := rest }), s) := by
    unfold step
    rw [hret]
    show ((if f.descriptor.returnsVoid then pure (.leave .null) else .leave <$> pop :
      FrameAction Flow) f s) = _
    rw [hvoid]
    obtain ⟨d, context, args, locals, stack, offset, pending⟩ := f
    cases hstack
    rfl
  rw [loop_succ fuel hi, Machine.bind_apply, hstep]
  rfl

/-! ## From the beginning -/

/-- A frame starts with its locals at the defaults of their types and an empty stack, at the
entry. -/
theorem Frame.start_apply {d : Descriptor} {o : UInt32} {context : GenericContext}
    {args locals : List Value} (hentry : d.body.entry? = some o) (hargs : args.length = d.argCount)
    (hlocals : (d.body.locals.mapM fun t => do
      scope.defaultValue (← Machine.ofExcept (context.close t)) : Machine (List Value)) s =
        (.ok locals, s')) :
    Frame.start scope d context args s = (.ok ⟨d, context, args, locals, [], o, false⟩, s') := by
  unfold Frame.start
  dsimp only
  rw [if_neg (not_not_intro hargs), hentry, Machine.bind_apply, hlocals]
  rfl

/-- A frame without locals starts in the state that it finds. -/
theorem Frame.start_eq {d : Descriptor} {o : UInt32} {args : List Value}
    (context : GenericContext) (hentry : d.body.entry? = some o)
    (hargs : args.length = d.argCount) (hlocals : d.body.locals = []) :
    Frame.start scope d context args s = (.ok ⟨d, context, args, [], [], o, false⟩, s) := by
  apply Frame.start_apply hentry hargs
  rw [hlocals, List.mapM_nil]
  rfl

/-- The run of a descriptor is the loop from the frame that it starts with. -/
theorem execute_eq {d : Descriptor} {o : UInt32} {context : GenericContext} {args : List Value}
    (fuel : Nat) (hentry : d.body.entry? = some o)
    (hstart : Frame.start scope d context args s = (.ok f, s')) (hd : f.descriptor = d) :
    execute scope callee fuel d context args s =
      match loop scope callee fuel f s' with
      | (.ok (v, _), s'') => (.ok v, s'')
      | (.error stop, s'') => (.error stop, s'') := by
  have hrun : runFrame scope callee fuel f = loop scope callee fuel f := by
    show (if f.descriptor.body.entry?.isNone then malformed .emptyBody
      else loop scope callee fuel : FrameAction Value) f = _
    rw [hd, hentry]
    rfl
  unfold execute
  rw [Machine.bind_apply, hstart]
  show (runFrame scope callee fuel f >>= fun r => pure r.1 : Machine Value) s' = _
  rw [Machine.bind_apply, hrun]
  rcases loop scope callee fuel f s' with ⟨stop | ⟨v, f''⟩, s''⟩ <;> rfl

/-- A descriptor that is found under a text of a method is the body of the method. -/
theorem Scope.method_of_find? {b : BoundMethod} {d : Descriptor}
    (h : scope.catalogue.find? b.keys = some d) :
    scope.method b = pure ⟨b.signature, b.context, .patched d⟩ := by
  unfold Scope.method Scope.method?
  rw [h]
  rfl

/-- The closed text of a bound method is the first that is looked under. -/
theorem Catalogue.find?_keys {c : Catalogue} {b : BoundMethod} {d : Descriptor}
    (h : c.get? b.signature.render = some d) : c.find? b.keys = some d := by
  unfold find? BoundMethod.keys
  dsimp only
  split <;> rw [List.findSome?_cons, h]

/-- A descriptor that is filed under the closed text of a bound method is its body. -/
theorem Scope.method_eq {b : BoundMethod} {d : Descriptor}
    (h : scope.catalogue.get? b.signature.render = some d) :
    scope.method b = pure ⟨b.signature, b.context, .patched d⟩ :=
  Scope.method_of_find? (Catalogue.find?_keys h)

/-- Invoking a method that a descriptor is filed for runs the descriptor. -/
theorem invoke_eq {d : Descriptor} (fuel : Nat) (receiver : Option Value) (args : List Value)
    (h : scope.catalogue.get? d.name.render = some d) :
    invoke scope (fuel + 1) d.name receiver args =
      execute scope (call scope fuel) fuel d (.ofSignature d.name) (slots d receiver args) := by
  have hmethod : scope.method (.ofSignature d.name none) =
      pure ⟨d.name, .ofSignature d.name, .patched d⟩ :=
    Scope.method_eq (b := .ofSignature d.name none) h
  unfold invoke
  rw [hmethod, pure_bind]
  rfl

/-! ## Effects on the stack -/

/-- The frame with a value pushed. -/
def Frame.pushed (f : Frame) (v : Value) : Frame := { f with stack := v :: f.stack }

/-- What a computation of the machine gives is pushed. -/
theorem ofMachine_push (m : Machine Value) :
    (ofMachine m >>= push) f = (do return ((), f.pushed (← m)) : Machine (Unit × Frame)) := by
  show (ofMachine m f >>= _ : Machine _) = _
  unfold ofMachine
  rw [bind_assoc]
  rfl

/-- An argument is pushed. -/
theorem perform_loadArg {index : UInt16} {v : Value} (hi : i.operand = .slot index)
    (hv : f.args[index.toNat]? = some v) :
    perform scope callee i (.loadArg none) f s = (.ok ((), f.pushed v), s) := by
  have hslot : slotOf none i = pure index.toNat := by
    unfold slotOf slotOperand
    rw [hi]
  have hload : loadArg index.toNat f s = (.ok (v, f), s) := by
    rw [loadArg, FrameAction.get_bind, hv]
    rfl
  show (slotOf none i >>= fun slot => loadArg slot >>= push : FrameAction Unit) f s = _
  rw [hslot, pure_bind, FrameAction.bind_apply, hload]
  rfl

/-- An integer of 32 bits is pushed. -/
theorem perform_pushInt32 {c : Int32} (hi : i.operand = .int c.toInt64) :
    perform scope callee i .pushInt32 f s = (.ok ((), f.pushed (.int32 c)), s) := by
  have hop : intOperand i = pure c.toInt64 := by
    unfold intOperand
    rw [hi]
  unfold perform
  rw [hop, pure_bind, if_pos (by rw [Int32.toInt32_toInt64]), Int32.toInt32_toInt64]
  rfl

/-- The result of an operator takes the place of the two values on top. -/
theorem perform_binary (operation : Value → Value → Except Error Value) (a b : Value) :
    perform scope callee i (.binary operation) ((f.pushed a).pushed b) s =
      match operation a b with
      | .ok v => (.ok ((), f.pushed v), s)
      | .error e => (.error (.failed e), s) := by
  show (ofExcept (operation a b) >>= push : FrameAction Unit) f s = _
  rw [FrameAction.bind_apply]
  cases operation a b <;> rfl

/-- The result of an operator takes the place of the value on top. -/
theorem perform_unary (operation : Value → Except Error Value) (a : Value) :
    perform scope callee i (.unary operation) (f.pushed a) s =
      match operation a with
      | .ok v => (.ok ((), f.pushed v), s)
      | .error e => (.error (.failed e), s) := by
  show (ofExcept (operation a) >>= push : FrameAction Unit) f s = _
  rw [FrameAction.bind_apply]
  cases operation a <;> rfl

/-! ## Calls -/

/-- A delegate that is found is run. -/
theorem callDelegate_apply {address : Nat} {d : Delegate} {args : List Value}
    (h : s.memory.heap.delegate? address = some d) :
    Step.callDelegate callee address args s = callee.delegate d args s := by
  rw [Step.callDelegate, Machine.get_bind, h]

/-- A delegate is run as its method is. -/
theorem call_delegate (scope : Scope) (fuel : Nat) (d : Delegate) (args : List Value) :
    (call scope fuel).delegate d args = call scope fuel d.method d.receiver args := by
  cases fuel <;> rfl

/-- A result is given without touching the frame. -/
theorem ofExcept_ok {α : Type} (a : α) : FrameAction.ofExcept (.ok a) = pure a := rfl

/-- The method of an instruction is what its text is read as. -/
theorem methodOperand_eq {text : String} {ref : MethodRef} (hi : i.operand = .method text)
    (hparse : MethodRef.parse text = .ok ref) : methodOperand i = pure ref := by
  unfold methodOperand
  rw [hi]
  dsimp only
  rw [hparse]
  rfl

/-- A method is bound with the types that stand for placeholders in the frame. -/
theorem bound_apply {ref : MethodRef} {b : BoundMethod}
    (hb : BoundMethod.ofRef ref f.context = .ok b) : Step.bound ref f s = (.ok (b, f), s) := by
  show FrameAction.ofExcept (BoundMethod.ofRef ref f.context) f s = _
  rw [hb]
  rfl

/-- Values are popped from the top, the last argument first. -/
theorem popMany_apply {count : Nat} (h : count ≤ f.stack.length) :
    popMany count f s =
      (.ok ((f.stack.take count).reverse, { f with stack := f.stack.drop count }), s) := by
  unfold popMany
  rw [FrameAction.get_bind, if_neg (not_lt.2 h)]
  rfl

/-- The frame with several values pushed, the last one on top. -/
def Frame.pushedAll (f : Frame) (vs : List Value) : Frame :=
  { f with stack := vs.reverse ++ f.stack }

/-- The frame with a receiver pushed, if there is one. -/
def Frame.withReceiver (f : Frame) : Option Value → Frame
  | some v => f.pushed v
  | none => f

/-- The frame after a call: with the result pushed unless there is none. -/
def Frame.returned (f : Frame) (void : Bool) (v : Value) : Frame := if void then f else f.pushed v

/-- Pushing a receiver does not change what stands for placeholders. -/
theorem Frame.context_withReceiver (receiver : Option Value) :
    (f.withReceiver receiver).context = f.context := by cases receiver <;> rfl

/-- Values that were pushed are popped in the order in which they were pushed. -/
theorem popMany_pushedAll (args : List Value) :
    popMany args.length (f.pushedAll args) s = (.ok (args, f), s) := by
  have hlength : args.length ≤ (f.pushedAll args).stack.length := by
    show args.length ≤ (args.reverse ++ f.stack).length
    rw [List.length_append, List.length_reverse]
    exact Nat.le_add_right _ _
  have htake : ((f.pushedAll args).stack.take args.length).reverse = args := by
    show ((args.reverse ++ f.stack).take args.length).reverse = args
    rw [List.take_left' List.length_reverse, List.reverse_reverse]
  have hdrop : (f.pushedAll args).stack.drop args.length = f.stack :=
    List.drop_left' List.length_reverse
  rw [popMany_apply hlength, htake, hdrop]
  rfl

/-- The receiver of a method is popped, if the method has one. -/
theorem popReceiver_apply {m : Method} {receiver : Option Value}
    (h : receiver.isSome = !m.isStatic) :
    Step.popReceiver m (f.withReceiver receiver) s = (.ok (receiver, f), s) := by
  unfold Step.popReceiver
  cases receiver with
  | none =>
    rw [if_pos (by simpa using h)]
    rfl
  | some v =>
    rw [if_neg (by simpa using h)]
    rfl

/-- A computation of the machine leaves the frame as it is. -/
theorem ofMachine_apply {α : Type} {m : Machine α} {a : α} (h : m s = (.ok a, s')) :
    ofMachine m f s = (.ok (a, f), s') := by
  unfold ofMachine
  rw [Machine.bind_apply, h]
  rfl

/-- What a callee gives is pushed, unless it is not to be used. -/
theorem ofMachine_returned (m : Machine Value) (void : Bool) :
    (do
      let v ← ofMachine m
      unless void do push v : FrameAction Unit) f =
      (do return ((), f.returned void (← m)) : Machine (Unit × Frame)) := by
  show (ofMachine m f >>= _ : Machine _) = _
  unfold ofMachine
  rw [bind_assoc]
  congr 1
  funext v
  cases void <;> rfl

/-- A call that is not one of a delegate runs the method that is chosen for the reference, with the
receiver and the arguments that are on the stack. -/
theorem perform_call {text : String} {ref : MethodRef} {b : BoundMethod} {m : Method}
    {receiver : Option Value} {args : List Value} (hi : i.operand = .method text)
    (hparse : MethodRef.parse text = .ok ref) (hname : ref.signature.name ≠ "Invoke")
    (hb : BoundMethod.ofRef ref f.context = .ok b) (hm : scope.method b s = (.ok m, s'))
    (hreceiver : receiver.isSome = !m.isStatic) (hargs : args.length = m.paramCount) :
    perform scope callee i .call ((f.withReceiver receiver).pushedAll args) s =
      (do return ((), f.returned m.returnsVoid (← callee m receiver args)) :
        Machine (Unit × Frame)) s' := by
  have hinvoke : Step.isDelegateInvoke scope ref = pure false := if_neg hname
  have hbound :
      BoundMethod.ofRef ref ((f.withReceiver receiver).pushedAll args).context = .ok b := by
    rw [← hb, ← f.context_withReceiver receiver]
    rfl
  show Step.call scope callee i _ s = _
  unfold Step.call
  rw [methodOperand_eq hi hparse, pure_bind, hinvoke, pure_bind, if_neg Bool.false_ne_true,
    FrameAction.bind_apply, bound_apply hbound]
  dsimp only
  rw [FrameAction.bind_apply, ofMachine_apply hm]
  dsimp only
  rw [FrameAction.bind_apply, ← hargs, popMany_pushedAll]
  dsimp only
  rw [FrameAction.bind_apply, popReceiver_apply hreceiver]
  dsimp only
  rw [ofMachine_returned]

/-- A call of a static method that a descriptor is found for, which has a result. -/
theorem perform_call_static {text : String} {ref : MethodRef} {b : BoundMethod} {d : Descriptor}
    (hi : i.operand = .method text) (hparse : MethodRef.parse text = .ok ref)
    (hname : ref.signature.name ≠ "Invoke") (hb : BoundMethod.ofRef ref f.context = .ok b)
    (hd : scope.catalogue.find? b.keys = some d) (hstatic : d.isStatic = true)
    (hvoid : d.returnsVoid = false) (hargs : b.signature.parameters.length ≤ f.stack.length) :
    perform scope callee i .call f s = (do
      let v ← callee ⟨b.signature, b.context, .patched d⟩ none
        (f.stack.take b.signature.parameters.length).reverse
      return ((), { f with stack := v :: f.stack.drop b.signature.parameters.length }) :
        Machine (Unit × Frame)) s := by
  let rest : Frame := { f with stack := f.stack.drop b.signature.parameters.length }
  let args := (f.stack.take b.signature.parameters.length).reverse
  have hlength : args.length = b.signature.parameters.length := by
    rw [List.length_reverse, List.length_take_of_le hargs]
  have hframe : (rest.withReceiver none).pushedAll args = f := by
    show { f with stack := args.reverse ++ f.stack.drop b.signature.parameters.length } = f
    rw [List.reverse_reverse, List.take_append_drop]
  have hmethod : scope.method b s = (.ok ⟨b.signature, b.context, .patched d⟩, s) := by
    rw [Scope.method_of_find? hd]
    rfl
  have hreceiver : Option.isSome (none : Option Value) =
      !Method.isStatic ⟨b.signature, b.context, .patched d⟩ := by
    show false = !d.isStatic
    rw [hstatic]
    rfl
  have hresult : Method.returnsVoid ⟨b.signature, b.context, .patched d⟩ = false := hvoid
  calc perform scope callee i .call f s
      = perform scope callee i .call ((rest.withReceiver none).pushedAll args) s := by rw [hframe]
    _ = (do return ((), rest.returned false (← callee _ none args)) :
          Machine (Unit × Frame)) s := by
        rw [perform_call (f := rest) hi hparse hname hb hmethod hreceiver hlength, hresult]
    _ = _ := rfl

end Hotswap
