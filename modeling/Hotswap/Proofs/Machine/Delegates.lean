import Hotswap.Proofs.Machine.Fields
import Hotswap.Proofs.Machine.Library
import Hotswap.Proofs.Machine.Proper
import Hotswap.Proofs.Machine.Run

/-!
# Calls through delegates

A delegate is made in two instructions: one pushes a function, which is in truth already the
delegate, and the constructor of a type of delegates leaves it as it is. Where the function needs no
receiver there is a null below it that goes away with the constructor, and the frame remembers this
from the one instruction to the next. The `Invoke` of the type then runs the method of the delegate.

So calling a method through a new delegate is calling the method with one delegate more in memory,
and with a type more that is remembered. Neither is seen by what is called, and the two ways have
corresponding outcomes (`shifted_call_through`).

That the new delegate is not referred to from anywhere needs that no reference dangles, and that a
type more is remembered is not seen needs that types can be read. Both are true of proper states
(`State.Proper`), and every run stays in those.
-/

namespace Hotswap

open FrameAction

variable {scope : Scope} {callee : Callee} {f : Frame} {s t : State} {i : Instruction} {k : Nat}

/-! ## Making a delegate -/

/-- What is chosen for a bound method is one of the descriptors or a method of the host. Of types
nothing is remembered by that. -/
theorem Scope.method_eq_ok {b : BoundMethod} {m : Method} (h : scope.method b s = (.ok m, t)) :
    ∃ memo, t = { s with memo } ∧ memo.types = s.memo.types ∧ m.signature = b.signature ∧
      m.context = b.context ∧
      ∀ d, m.target = .patched d → scope.catalogue.find? b.keys = some d := by
  cases hfind : scope.catalogue.find? b.keys with
  | some d =>
    rw [Scope.method_of_find? hfind] at h
    cases h
    refine ⟨s.memo, rfl, rfl, rfl, rfl, ?_⟩
    rintro _ ⟨⟩
    rfl
  | none =>
    have hsearched : scope.method? b s =
        (.ok ((scope.symbols.hostMethod? b s.memo).1.map fun h =>
            ⟨b.signature, b.context, .host h⟩),
          { s with memo := (scope.symbols.hostMethod? b s.memo).2 }) := by
      unfold Scope.method?
      rw [hfind]
      rfl
    have htypes : (scope.symbols.hostMethod? b s.memo).2.types = s.memo.types := by
      rw [SymbolTable.hostMethod?_apply]
      split <;> rfl
    unfold Scope.method at h
    obtain ⟨found, s', hfound, h⟩ := Machine.bind_eq_ok.1 h
    rw [hsearched] at hfound
    cases hfound
    cases hhost : (scope.symbols.hostMethod? b s.memo).1 with
    | none =>
      rw [hhost] at h
      cases h
    | some method =>
      rw [hhost] at h
      cases h
      exact ⟨_, rfl, htypes, rfl, rfl, nofun⟩

/-- Doing what an instruction does to values is all that the instruction does. -/
theorem discard_step {e : Effect} (he : i.opcode.action = .effect e) :
    (discard (step scope callee i) : FrameAction Unit) = perform scope callee i e := by
  unfold step
  rw [he]
  show ((perform scope callee i e >>= fun _ => pure Flow.next) >>= fun _ => pure ()) = _
  rw [bind_assoc]
  exact bind_pure _

/-- A function is loaded by making a delegate of the chosen method, with the receiver that is on
top. -/
theorem perform_loadFunction {text : String} {ref : MethodRef} {b : BoundMethod} {m : Method}
    {receiver : Option Value} (virtual : Bool) (hi : i.operand = .method text)
    (hparse : MethodRef.parse text = .ok ref) (hb : BoundMethod.ofRef ref f.context = .ok b)
    (hm : scope.method b s = (.ok m, t)) (hreceiver : receiver.isSome = !m.isStatic) :
    perform scope callee i (.loadFunction virtual) (f.withReceiver receiver) s =
      (.ok ((), { f with pendingTarget := virtual || m.isStatic }.pushed
        (.delegate t.memory.heap.delegates.size)), t.withDelegate ⟨m, receiver⟩) := by
  have hbound : BoundMethod.ofRef ref (f.withReceiver receiver).context = .ok b := by
    rw [f.context_withReceiver, hb]
  show Step.loadFunction scope virtual i _ s = _
  unfold Step.loadFunction
  rw [methodOperand_eq hi hparse, pure_bind, FrameAction.bind_apply, bound_apply hbound]
  dsimp only
  rw [FrameAction.bind_apply, ofMachine_apply hm]
  dsimp only
  rw [FrameAction.bind_apply, popReceiver_apply hreceiver]
  rfl

/-- The frame below a function: with a null pushed that is pending if the function has no
receiver. -/
def Frame.withTarget (f : Frame) : Option Value → Frame
  | some _ => { f with pendingTarget := false }
  | none => { f with pendingTarget := true }.pushed .null

/-- The constructor of a type of delegates leaves the delegate on top, and drops the null below it
if that is pending. -/
theorem newDelegate_apply (receiver : Option Value) (address : Nat) :
    Step.newDelegate ((f.withTarget receiver).pushed (.delegate address)) s =
      (.ok ((), { f with pendingTarget := false }.pushed (.delegate address)), s) := by
  cases receiver <;> rfl

/-- A type that is found by the symbols is found from everything that is remembered of types, if
that is what the symbols say. -/
theorem Memo.Sound.resolve {symbols : SymbolTable} (hs : s.memo.Sound symbols) {type : TypeName}
    (htype : type.WellFormed) {handle : TypeHandle} (h : symbols.handleOf type = .ok handle) :
    ∃ memo, Machine.resolve (symbols.resolveType type) s = (.ok handle, { s with memo }) ∧
      memo.Sound symbols ∧ memo.methods = s.memo.methods := by
  obtain ⟨hresult, hsound, hmethods⟩ := symbols.answers_resolveType type htype s.memo hs
  refine ⟨(symbols.resolveType type s.memo).2, ?_, hsound, hmethods⟩
  rw [Machine.resolve_apply]
  rcases hfound : symbols.resolveType type s.memo with ⟨e | found, memo⟩ <;>
    rw [hfound, h] at hresult <;> cases hresult
  rfl

/-- Making an object of a type of delegates pops the function and pushes it as the delegate. -/
theorem perform_newObject {text : String} {ref : MethodRef} {type : TypeName} {handle : TypeHandle}
    (hi : i.operand = .method text) (hparse : MethodRef.parse text = .ok ref)
    (hclose : f.context.close ref.signature.declaringType = .ok type)
    (hresolve : Machine.resolve (scope.symbols.resolveType type) s = (.ok handle, t))
    (hdelegate : handle.isDelegate = true) :
    perform scope callee i .newObject f s = Step.newDelegate f t := by
  show Step.newObject scope callee i f s = _
  unfold Step.newObject
  rw [methodOperand_eq hi hparse, pure_bind, FrameAction.get_bind, hclose, ofExcept_ok, pure_bind,
    FrameAction.bind_apply, ofMachine_apply hresolve]
  dsimp only
  rw [if_pos hdelegate]

/-! ## Calling a delegate -/

/-- Calling the `Invoke` of a type of delegates pops the arguments and the delegate, and runs it. -/
theorem perform_invoke {text : String} {ref : MethodRef} {type : TypeName} {handle : TypeHandle}
    {address : Nat} {d : Delegate} {args : List Value} (hi : i.operand = .method text)
    (hparse : MethodRef.parse text = .ok ref) (hname : ref.signature.name = "Invoke")
    (hclose : f.context.close ref.signature.declaringType = .ok type)
    (hresolve : Machine.resolve (scope.symbols.resolveType type) s = (.ok handle, t))
    (hdelegate : handle.isDelegate = true) (hd : t.memory.heap.delegate? address = some d)
    (hargs : ref.signature.parameters.length = args.length) :
    perform scope callee i .call ((f.pushed (.delegate address)).pushedAll args) s =
      (do return ((), f.returned ref.returnsVoid (← callee.delegate d args)) :
        Machine (Unit × Frame)) t := by
  let g := (f.pushed (.delegate address)).pushedAll args
  have hinvoke : Step.isDelegateInvoke scope ref g s = (.ok (true, g), t) := by
    unfold Step.isDelegateInvoke
    have hclose' : g.context.close ref.signature.declaringType = .ok type := hclose
    have hattempt : Machine.attempt (Machine.resolve (scope.symbols.resolveType type)) s =
        (.ok (.ok handle), t) := by
      rw [Machine.attempt_apply, hresolve]
    rw [if_pos hname, FrameAction.get_bind, hclose', ofExcept_ok, pure_bind,
      FrameAction.bind_apply, ofMachine_apply hattempt]
    dsimp only
    rw [hdelegate]
    rfl
  show Step.call scope callee i g s = _
  unfold Step.call
  rw [methodOperand_eq hi hparse, pure_bind, FrameAction.bind_apply, hinvoke]
  dsimp only
  rw [if_pos rfl]
  unfold Step.invokeDelegate
  rw [hargs, FrameAction.bind_apply, popMany_pushedAll]
  show (do
    let v ← ofMachine (Step.callDelegate callee address args)
    unless ref.returnsVoid do push v : FrameAction Unit) f t = _
  rw [ofMachine_returned, Machine.bind_apply, callDelegate_apply hd, Machine.bind_apply]

/-- Values are pushed one after the other. -/
theorem forM_push_apply (vs : List Value) :
    (vs.forM push : FrameAction Unit) f s = (.ok ((), f.pushedAll vs), s) := by
  induction vs generalizing f with
  | nil => rfl
  | cons v rest ih =>
    show (rest.forM push : FrameAction Unit) (f.pushed v) s = _
    rw [ih]
    unfold Frame.pushedAll
    rw [List.reverse_cons, List.append_assoc]
    rfl

/-! ## Two ways of calling a method -/

/-- The texts in a call of a method: of the method itself, and for a call through a delegate of a
constructor of a type of delegates and of the `Invoke` of that type. -/
structure CallTexts where
  /-- The text of the method. -/
  method : String
  /-- The text of the constructor. -/
  constructor : String
  /-- The text of the `Invoke`. -/
  invoke : String

namespace CallTexts

/-- Pushes the receiver, or null if there is none, loads the method as a function and makes a
delegate of it. -/
def makeDelegate (c : CallTexts) (scope : Scope) (callee : Callee) (receiver : Option Value) :
    FrameAction Unit := do
  push (receiver.getD .null)
  discard (step scope callee ⟨.ldftn, .method c.method, none⟩)
  discard (step scope callee ⟨.newobj, .method c.constructor, none⟩)

/-- Makes a delegate, pushes the arguments and calls the `Invoke`. -/
def callThrough (c : CallTexts) (scope : Scope) (callee : Callee) (receiver : Option Value)
    (args : List Value) : FrameAction Unit := do
  c.makeDelegate scope callee receiver
  args.forM push
  discard (step scope callee ⟨.callvirt, .method c.invoke, none⟩)

/-- Pushes the receiver, if there is one, and the arguments, and calls the method. -/
def callDirectly (c : CallTexts) (scope : Scope) (callee : Callee) (receiver : Option Value)
    (args : List Value) : FrameAction Unit := do
  receiver.forM push
  args.forM push
  discard (step scope callee ⟨.call, .method c.method, none⟩)

/-- The texts are those of a bound method, for which a method with a body has been chosen, and of a
closed type of delegates with an `Invoke` that takes as many arguments as the method, and gives a
result if the method does. -/
structure Fit (c : CallTexts) (scope : Scope) (cx : GenericContext) (b : BoundMethod) (m : Method)
    (type : TypeName) : Prop where
  /-- The method is not an `Invoke` itself, and the reference to it is bound. -/
  reference : ∃ ref, MethodRef.parse c.method = .ok ref ∧ ref.signature.name ≠ "Invoke" ∧
    BoundMethod.ofRef ref cx = .ok b
  /-- The type is one of delegates. -/
  isDelegate : ∃ handle, scope.symbols.handleOf type = .ok handle ∧ handle.isDelegate = true
  /-- The constructor is one of the type. -/
  constructor : ∃ ref, MethodRef.parse c.constructor = .ok ref ∧
    cx.close ref.signature.declaringType = .ok type
  /-- The `Invoke` is that of the type. -/
  invoke : ∃ ref, MethodRef.parse c.invoke = .ok ref ∧ ref.signature.name = "Invoke" ∧
    cx.close ref.signature.declaringType = .ok type ∧
    ref.signature.parameters.length = m.paramCount ∧ ref.returnsVoid = m.returnsVoid

variable {c : CallTexts} {b : BoundMethod} {m : Method} {type : TypeName} {receiver : Option Value}
  {args : List Value}

/-- Calling directly is running the method that is chosen for the reference. -/
theorem callDirectly_apply (hc : c.Fit scope f.context b m type)
    (hm : scope.method b s = (.ok m, t)) (hreceiver : receiver.isSome = !m.isStatic)
    (hargs : args.length = m.paramCount) :
    c.callDirectly scope callee receiver args f s =
      (do return ((), f.returned m.returnsVoid (← callee m receiver args)) :
        Machine (Unit × Frame)) t := by
  obtain ⟨ref, hparse, hname, hb⟩ := hc.reference
  have hpush : (receiver.forM push : FrameAction Unit) f s =
      (.ok ((), f.withReceiver receiver), s) := by cases receiver <;> rfl
  unfold callDirectly
  rw [FrameAction.bind_apply, hpush]
  dsimp only
  rw [FrameAction.bind_apply, forM_push_apply]
  dsimp only
  rw [discard_step rfl, perform_call rfl hparse hname hb hm hreceiver hargs]

/-- Making a delegate pushes one reference, to a delegate of the chosen method with the receiver. -/
theorem makeDelegate_apply (callee : Callee) (hc : c.Fit scope f.context b m type)
    (hcx : f.context.Over TypeName.WellFormed) (hs : s.memo.Sound scope.symbols)
    (hm : scope.method b s = (.ok m, t)) (hreceiver : receiver.isSome = !m.isStatic) :
    ∃ memo, c.makeDelegate scope callee receiver f s =
      (.ok ((), { f with pendingTarget := false }.pushed
        (.delegate s.memory.heap.delegates.size)), { s.withDelegate ⟨m, receiver⟩ with memo }) ∧
      memo.Sound scope.symbols ∧ memo.methods = t.memo.methods := by
  obtain ⟨ref, hparse, -, hb⟩ := hc.reference
  obtain ⟨ref', hparse', hclose⟩ := hc.constructor
  obtain ⟨handle, hhandle, hdelegate⟩ := hc.isDelegate
  obtain ⟨memo₁, rfl, htypes, -⟩ := Scope.method_eq_ok hm
  have hwf : type.WellFormed := hcx.wellFormed_close
    (MethodRef.wellFormed_of_parse hparse').signature.declaringType hclose
  have hsound : Memo.Sound scope.symbols memo₁ :=
    fun text handle hfound => hs text handle (htypes ▸ hfound)
  obtain ⟨memo, hresolve, hmemo, hmethods⟩ := Memo.Sound.resolve
    (s := { s with memo := memo₁ }.withDelegate ⟨m, receiver⟩) hsound hwf hhandle
  refine ⟨memo, ?_, hmemo, hmethods⟩
  let a := Value.delegate s.memory.heap.delegates.size
  have hfunction : (discard (step scope callee ⟨.ldftn, .method c.method, none⟩) :
      FrameAction Unit) (f.pushed (receiver.getD .null)) s =
        (.ok ((), (f.withTarget receiver).pushed a),
          { s with memo := memo₁ }.withDelegate ⟨m, receiver⟩) := by
    rw [discard_step rfl]
    cases receiver with
    | none =>
      have hstatic : m.isStatic = true := by simpa using hreceiver
      refine (perform_loadFunction (i := ⟨.ldftn, .method c.method, none⟩) (f := f.pushed .null)
        false rfl hparse hb hm hreceiver).trans ?_
      rw [hstatic]
      rfl
    | some v =>
      have hinstance : m.isStatic = false := by simpa using hreceiver
      refine (perform_loadFunction (i := ⟨.ldftn, .method c.method, none⟩) false rfl hparse hb hm
        hreceiver).trans ?_
      rw [hinstance]
      rfl
  have hconstructor : (discard (step scope callee ⟨.newobj, .method c.constructor, none⟩) :
      FrameAction Unit) ((f.withTarget receiver).pushed a)
        ({ s with memo := memo₁ }.withDelegate ⟨m, receiver⟩) =
        (.ok ((), { f with pendingTarget := false }.pushed a),
          { s.withDelegate ⟨m, receiver⟩ with memo }) := by
    have hclose' : ((f.withTarget receiver).pushed a).context.close ref'.signature.declaringType =
        .ok type := by cases receiver <;> exact hclose
    rw [discard_step rfl, perform_newObject rfl hparse' hclose' hresolve hdelegate,
      newDelegate_apply]
    rfl
  unfold makeDelegate
  rw [FrameAction.bind_apply]
  show (discard (step scope callee ⟨.ldftn, .method c.method, none⟩) >>= _ : FrameAction Unit)
    (f.pushed (receiver.getD .null)) s = _
  rw [FrameAction.bind_apply, hfunction]
  exact hconstructor

/-- A call through a delegate that has been made is running that delegate. -/
theorem callThrough_apply (hc : c.Fit scope f.context b m type)
    (hcx : f.context.Over TypeName.WellFormed) {memo : Memo}
    (hmake : c.makeDelegate scope callee receiver f s =
      (.ok ((), { f with pendingTarget := false }.pushed
        (.delegate s.memory.heap.delegates.size)), { s.withDelegate ⟨m, receiver⟩ with memo }))
    (hmemo : memo.Sound scope.symbols) (hargs : args.length = m.paramCount) :
    ∃ memo', c.callThrough scope callee receiver args f s =
      (do return ((), { f with pendingTarget := false }.returned m.returnsVoid
          (← callee.delegate ⟨m, receiver⟩ args)) : Machine (Unit × Frame))
        { s.withDelegate ⟨m, receiver⟩ with memo := memo' } ∧
      memo'.Sound scope.symbols ∧ memo'.methods = memo.methods := by
  obtain ⟨ref, hparse, hname, hclose, hparameters, hvoid⟩ := hc.invoke
  obtain ⟨handle, hhandle, hdelegate⟩ := hc.isDelegate
  have hwf : type.WellFormed := hcx.wellFormed_close
    (MethodRef.wellFormed_of_parse hparse).signature.declaringType hclose
  obtain ⟨memo', hresolve, hmemo', hmethods⟩ := Memo.Sound.resolve
    (s := { s.withDelegate ⟨m, receiver⟩ with memo }) hmemo hwf hhandle
  refine ⟨memo', ?_, hmemo', hmethods⟩
  have hd : (s.memory.heap.newDelegate ⟨m, receiver⟩).2.delegate? s.memory.heap.delegates.size =
      some ⟨m, receiver⟩ := Array.getElem?_push_size
  unfold callThrough
  rw [FrameAction.bind_apply, hmake]
  dsimp only
  rw [FrameAction.bind_apply, forM_push_apply]
  dsimp only
  rw [discard_step rfl, ← hvoid]
  exact perform_invoke (i := ⟨.callvirt, .method c.invoke, none⟩)
    (f := { f with pendingTarget := false }) rfl hparse hname hclose hresolve hdelegate hd
    (hparameters.trans hargs.symm)

section calls

variable (hscope : scope.Uniform) (hs : s.Proper scope.symbols)
  (hcx : f.context.Over TypeName.WellFormed) (hc : c.Fit scope f.context b m type)
  (hm : (scope.method b s).1 = .ok m) (hreceiver : receiver.isSome = !m.isStatic)

include hs hcx hc hm hreceiver

/-- A delegate of the chosen method can be made in a proper state. -/
theorem exists_makeDelegate (callee : Callee) :
    ∃ memo, c.makeDelegate scope callee receiver f s =
      (.ok ((), { f with pendingTarget := false }.pushed
        (.delegate s.memory.heap.delegates.size)), { s.withDelegate ⟨m, receiver⟩ with memo }) := by
  rcases hchosen : scope.method b s with ⟨stop | m', t⟩ <;> rw [hchosen] at hm <;> cases hm
  obtain ⟨memo, hmake, -⟩ := makeDelegate_apply callee hc hcx hs.sound hchosen hreceiver
  exact ⟨memo, hmake⟩

include hscope

/-- The two ways of calling the method have corresponding outcomes. -/
theorem shifted_calls (hargs : args.length = m.paramCount) (hr : ∀ v ∈ receiver, v.ProperIn s)
    (ha : ∀ v ∈ args, v.ProperIn s) (fuel : Nat) :
    Shifted scope.symbols s.memory.heap.delegates.size
      (fun r r' => ∃ v v', Value.Shifts s.memory.heap.delegates.size v v' ∧
        r.2 = f.returned m.returnsVoid v ∧
        r'.2 = { f with pendingTarget := false }.returned m.returnsVoid v')
      (c.callDirectly scope (call scope fuel) receiver args f s)
      (c.callThrough scope (call scope fuel) receiver args f s) := by
  rcases hchosen : scope.method b s with ⟨stop | m', t⟩ <;> rw [hchosen] at hm <;> cases hm
  obtain ⟨memo, hmake, hsound, hmethods⟩ :=
    makeDelegate_apply (call scope fuel) hc hcx hs.sound hchosen hreceiver
  obtain ⟨memo', hthrough, hsound', hmethods'⟩ := callThrough_apply hc hcx hmake hsound hargs
  rw [callDirectly_apply hc hchosen hreceiver hargs, hthrough, call_delegate]
  obtain ⟨ref, hparse, -, hb⟩ := hc.reference
  obtain ⟨memo₁, rfl, htypes, hsignature, hcontext, hpatched⟩ := Scope.method_eq_ok hchosen
  have hover := BoundMethod.over_wellFormed_of_ofRef hcx (MethodRef.wellFormed_of_parse hparse) hb
  have hreadable : m.Readable :=
    ⟨⟨hsignature ▸ hover.signature, hcontext ▸ hover.context⟩, fun d hd =>
      hscope.locals b.keys d (hpatched d hd)⟩
  have hrun := (shifts_call hscope s.memory.heap.delegates.size fuel).method hreadable
    (shiftsOption_of_proper hr) (shiftsAll_of_proper ha)
  refine hrun.bind (fun v v' hv => .pure ⟨v, v', hv, rfl, rfl⟩) _ _
    (hs.shifts ⟨m, receiver⟩ htypes hsound' (hmethods'.trans hmethods))

end calls

/-- **Calling a method through a new delegate is calling it directly.** Making the delegate takes
the stack to the stack with one reference more, and memory to memory with the one delegate more, of
the method and its receiver. The calls stop alike, or both come back with nothing or with
corresponding results on the stack, and the states that they leave correspond: the objects, the
arrays, the cells of the host and the static fields are the same, up to the addresses of the
delegates that were made after that one. -/
theorem shifted_call_through (hscope : scope.Uniform) (hs : s.Proper scope.symbols)
    (hcx : f.context.Over TypeName.WellFormed) (hc : c.Fit scope f.context b m type)
    (hm : (scope.method b s).1 = .ok m) (hreceiver : receiver.isSome = !m.isStatic)
    (hargs : args.length = m.paramCount) (hr : ∀ v ∈ receiver, v.ProperIn s)
    (ha : ∀ v ∈ args, v.ProperIn s) (fuel : Nat) :
    (∃ memo, c.makeDelegate scope (call scope fuel) receiver f s =
      (.ok ((), { f with pendingTarget := false }.pushed
        (.delegate s.memory.heap.delegates.size)), { s.withDelegate ⟨m, receiver⟩ with memo })) ∧
    Shifted scope.symbols s.memory.heap.delegates.size
      (fun r r' => ∃ v v', Value.Shifts s.memory.heap.delegates.size v v' ∧
        r.2 = f.returned m.returnsVoid v ∧
        r'.2 = { f with pendingTarget := false }.returned m.returnsVoid v')
      (c.callDirectly scope (call scope fuel) receiver args f s)
      (c.callThrough scope (call scope fuel) receiver args f s) := by
  exact ⟨exists_makeDelegate hs hcx hc hm hreceiver _,
    shifted_calls hscope hs hcx hc hm hreceiver hargs hr ha fuel⟩

end CallTexts

/-! ### A method of an object -/

/-- `Echo` of a unit gives its argument back. -/
def echoDescriptor : Descriptor where
  name := ⟨.plain "Game.Unit", "Echo", [], [.plain "System.Int32"]⟩
  isStatic := false
  parameters := [.plain "System.Int32"]
  returnType := .plain "System.Int32"
  body := ⟨1, [], .ofList [(0, ⟨.ldarg1, .none, some 1⟩), (1, ⟨.ret, .none, none⟩)]⟩

/-- A module with a type of delegates. -/
def ruleModule : Module where
  name := "Game"
  types := .ofList [("Game.Rule", { name := "Game.Rule", kind := .delegate })]

/-- A host with that module and the core library, and code with that method. -/
def echoScope : Scope where
  symbols := { modules := ruleModule :: CoreLibrary.module.toOption.toList }
  catalogue := { methods := .ofList [("Game.Unit::Echo(System.Int32)", echoDescriptor)] }

/-- The texts in a call of that method. -/
def echoCall : CallTexts where
  method := "System.Int32 Game.Unit::Echo(System.Int32)"
  constructor := "System.Void Game.Rule::.ctor(System.Object,System.IntPtr)"
  invoke := "System.Int32 Game.Rule::Invoke(System.Int32)"

/-- The method as it is called. -/
def echoMethod : Method := ⟨echoDescriptor.name, {}, .patched echoDescriptor⟩

/-- The method as it is bound. -/
def boundEcho : BoundMethod :=
  ⟨echoDescriptor.name, echoDescriptor.name, {}, some (.plain "System.Int32")⟩

/-- The code that is in force has the method. -/
theorem find?_boundEcho : echoScope.catalogue.find? boundEcho.keys = some echoDescriptor := by
  decide +kernel

/-- The host does not see the addresses of delegates. -/
theorem uniform_echoScope : echoScope.Uniform where
  symbols := by
    have hrule : ruleModule.Uniform := ⟨Table.Holds.insert .empty nofun, .empty, .empty⟩
    refine SymbolTable.uniform_of_modules (List.forall_mem_cons.2 ⟨hrule, fun m hm => ?_⟩)
    exact CoreLibrary.uniform_of_module (toOption_eq_some.1 (Option.mem_toList.1 hm))
  locals keys d hd := by
    have hmem : d = echoDescriptor := by
      obtain ⟨key, -, hd⟩ := List.exists_of_findSome?_eq_some hd
      have hall : echoScope.catalogue.methods.Holds (· = echoDescriptor) :=
        Table.Holds.insert .empty rfl
      exact hall.get? hd
    rw [hmem]
    exact nofun

/-- The texts are those of that method. -/
theorem fit_echoCall :
    echoCall.Fit echoScope emptyFrame.context boundEcho echoMethod (.plain "Game.Rule") where
  reference := ⟨⟨some (.plain "System.Int32"), echoDescriptor.name⟩, by decide +kernel,
    by decide, by decide +kernel⟩
  isDelegate :=
    ⟨_, SymbolTable.handleOf_plain (d := { name := "Game.Rule", kind := .delegate }) rfl, rfl⟩
  constructor := ⟨⟨some (.plain "System.Void"), ⟨.plain "Game.Rule", ".ctor", [],
    [.plain "System.Object", .plain "System.IntPtr"]⟩⟩, by decide +kernel, by decide +kernel⟩
  invoke := ⟨⟨some (.plain "System.Int32"), ⟨.plain "Game.Rule", "Invoke", [],
    [.plain "System.Int32"]⟩⟩, by decide +kernel, rfl, by decide +kernel, rfl, by decide +kernel⟩

/-- The type of the receiver is one that can be written. -/
theorem wellFormed_unit : (TypeName.plain "Game.Unit").WellFormed :=
  have hparse : TypeName.parse "Game.Unit" = .ok (.plain "Game.Unit") := by decide +kernel
  TypeName.wellFormed_of_parse hparse

/-- A new unit is a proper state. -/
theorem proper_newUnit (symbols : SymbolTable) : newUnit.Proper symbols := by
  have hunit : ∀ {Q : Value → Prop}, ∀ i ∈ newUnit.memory.heap.objects, i.fields.Holds Q := by
    intro Q i hi
    cases List.mem_singleton.1 (Array.mem_toList_iff.2 hi)
    exact .empty
  have harrays : ∀ {Q : Array Value → Prop}, ∀ items ∈ newUnit.memory.heap.arrays, Q items :=
    fun _ hi => absurd hi (Array.not_mem_empty _)
  have hdelegates : ∀ {Q : Delegate → Prop}, ∀ d ∈ newUnit.memory.heap.delegates, Q d :=
    fun _ hd => absurd hd (Array.not_mem_empty _)
  have hheap : ∀ {Q : Value → Prop}, newUnit.memory.heap.Holds Q := ⟨hunit, harrays, hdelegates⟩
  exact ⟨⟨⟨hheap, .empty⟩, .empty⟩, ⟨⟨.of_holds hheap hdelegates, hdelegates⟩, .empty⟩, .empty,
    Memo.sound_empty symbols⟩

/-- A unit echoes seven, called directly and through a delegate. -/
theorem shifted_call_through_echo :
    ∃ r t r' t', echoCall.callDirectly echoScope (call echoScope 3) (some (.object unitRef))
        [.int32 7] emptyFrame newUnit = (.ok r, t) ∧
      echoCall.callThrough echoScope (call echoScope 3) (some (.object unitRef)) [.int32 7]
        emptyFrame newUnit = (.ok r', t') ∧
      r.2.stack = [.int32 7] ∧ r'.2.stack = [.int32 7] ∧ t.Shifts echoScope.symbols 0 t' := by
  have hdirect : (echoCall.callDirectly echoScope (call echoScope 3) (some (.object unitRef))
      [.int32 7] emptyFrame newUnit).1.map (fun r => r.2.stack) = .ok [.int32 7] := by
    decide +kernel
  have hreceiver : ∀ v ∈ some (Value.object unitRef), v.ProperIn newUnit := by
    rintro _ ⟨⟩
    exact ⟨trivial, wellFormed_unit⟩
  have hargs : ∀ v ∈ [Value.int32 7], v.ProperIn newUnit := by
    intro v hv
    cases List.mem_singleton.1 hv
    exact ⟨trivial, trivial⟩
  have hmethod : (echoScope.method boundEcho newUnit).1 = .ok echoMethod := by
    rw [Scope.method_of_find? find?_boundEcho]
    rfl
  have hcontext : emptyFrame.context.Over TypeName.WellFormed :=
    ⟨fun _ h => absurd h List.not_mem_nil, fun _ h => absurd h List.not_mem_nil⟩
  obtain ⟨-, hboth⟩ := CallTexts.shifted_call_through uniform_echoScope (proper_newUnit _)
    hcontext fit_echoCall hmethod rfl rfl hreceiver hargs 3
  generalize echoCall.callDirectly echoScope (call echoScope 3) (some (.object unitRef))
    [.int32 7] emptyFrame newUnit = o at hboth hdirect
  generalize echoCall.callThrough echoScope (call echoScope 3) (some (.object unitRef))
    [.int32 7] emptyFrame newUnit = o' at hboth
  cases hboth with
  | stopped ht => cases hdirect
  | @ok r r' t t' hr ht =>
    obtain ⟨v, _, ⟨rfl, -⟩, hframe, hframe'⟩ := hr
    have hstack : r.2.stack = [.int32 7] := Except.ok.inj hdirect
    have hv : v = .int32 7 := by
      rw [hframe] at hstack
      exact List.head_eq_of_cons_eq hstack
    refine ⟨r, t, r', t', rfl, rfl, hstack, ?_, ht⟩
    rw [hframe', hv]
    rfl

end Hotswap
