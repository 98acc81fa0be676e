import Hotswap.Proofs.Machine.Live

/-!
# Runs leave no reference dangling

Operators make no references, a field and an item hold what was stored in them, and a new delegate
gets the address that is free. So an instruction leaves no reference dangling if the methods that it
calls do not (`lives_step`), and from instructions this goes on to rounds, descriptors, programs of
the host and, by induction on the fuel, to whole calls (`lives_call`).
-/

namespace Hotswap

open FrameAction

/-! ## Operators -/

/-- What an action makes of operands is no reference but one of them. -/
def Action.Live : Action → Prop
  | .effect (.push v) => v.IsPlain
  | .effect (.binary operation) => ∀ a b, AnswerPlain (operation a b)
  | .effect (.unary operation) => ∀ n (v : Value), v.LiveBelow n → AnswerLive n (operation v)
  | _ => True

/-- **No operator of the opcode table leaves a reference dangling.** -/
theorem Action.Standard.live {a : Action} (h : a.Standard) : a.Live := by
  unfold Action.Live
  split
  case h_1 v => exact h
  case h_2 operation => exact IsBinary.plain h
  case h_3 operation => exact fun _ v hv => (IsUnary.answerFrom h v).live hv
  case h_4 => trivial

/-! ## Computations of the machine in an instruction -/

/-- A callee that leaves no reference dangling when it is called with references that do not. -/
structure Callee.Lives (callee : Callee) : Prop where
  /-- A method leaves none dangling. -/
  method : ∀ {n : Nat} (m : Method) {receiver : Option Value} {args : List Value},
    (∀ v ∈ receiver, v.LiveBelow n) → (∀ v ∈ args, v.LiveBelow n) →
    (callee m receiver args).Lives n Value.LiveBelow
  /-- A delegate leaves none dangling. -/
  delegate : ∀ {n : Nat} (d : Delegate) {args : List Value},
    (∀ v ∈ d.receiver, v.LiveBelow n) → (∀ v ∈ args, v.LiveBelow n) →
    (callee.delegate d args).Lives n Value.LiveBelow

/-- If methods leave none dangling, neither do delegates that are run as their methods are. -/
theorem Callee.Lives.ofMethod {run : Method → Option Value → List Value → Machine Value}
    (h : ∀ {n : Nat} (m : Method) {receiver : Option Value} {args : List Value},
      (∀ v ∈ receiver, v.LiveBelow n) → (∀ v ∈ args, v.LiveBelow n) →
      (run m receiver args).Lives n Value.LiveBelow) : (Callee.ofMethod run).Lives :=
  ⟨h, fun d => h d.method⟩

variable {scope : Scope} {callee : Callee} {n : Nat}

/-- A new object refers to no delegate. -/
theorem keepsLive_newObject (type : TypeName) :
    KeepsLive n Value.LiveBelow fun m => m.newObject type :=
  fun _ hm _ => ⟨hm.withHeap (hm.heap.newObject type .empty) le_rfl, le_rfl, trivial⟩

/-- The default of such a type does not dangle. -/
theorem TypeHandle.Live.keepsLive {handle : TypeHandle} (h : handle.Live) :
    KeepsLive n Value.LiveBelow handle.defaultValue := by
  have hnull : KeepsLive n Value.LiveBelow (pure .null : StateM Memory Value) :=
    fun _ hm _ => ⟨hm, le_rfl, trivial⟩
  unfold TypeHandle.defaultValue
  split
  · rename_i d hd
    unfold TypeDefinition.defaultValue
    split
    · rename_i initial _ hinitial
      exact fun m hm _ => h d hd initial hinitial m hm (Nat.zero_le _)
    · exact keepsLive_newObject _
    · exact hnull
  · exact hnull

/-- Making an object leaves no reference dangling. -/
theorem lives_newObject (type : TypeName) :
    (Machine.newObject type).Lives n Value.LiveBelow :=
  .onMemory (keepsLive_newObject type)

/-- Neither does a search for a method. -/
theorem lives_method? (scope : Scope) (b : BoundMethod) :
    (scope.method? b).Lives n fun _ _ => True := by
  unfold Scope.method?
  split
  · exact .pure fun _ _ => trivial
  · exact (Machine.Lives.resolve (keeps_hostMethod? scope.symbols b)).bind fun _ _ _ _ =>
      .pure fun _ _ => trivial

/-- Neither does choosing one. -/
theorem lives_method (scope : Scope) (b : BoundMethod) :
    (scope.method b).Lives n fun _ _ => True := by
  unfold Scope.method
  refine (lives_method? scope b).bind fun _ _ _ _ => ?_
  split
  · exact .pure fun _ _ => trivial
  · exact .fail _

/-- Neither does calling a delegate, if the callee leaves none dangling. -/
theorem lives_callDelegate (hc : callee.Lives) (address : Nat) {args : List Value}
    (hargs : ∀ v ∈ args, v.LiveBelow n) :
    (Step.callDelegate callee address args).Lives n Value.LiveBelow := by
  unfold Step.callDelegate
  refine .get_bind fun s hs hn => ?_
  split
  · rename_i d hd
    exact hc.delegate d (hs.live.memory.heap.receivers d (Array.mem_of_getElem? hd))
      fun v hv => (hargs v hv).mono hn
  · exact .fail _

/-- Neither does constructing an object. -/
theorem lives_construct (hc : callee.Lives) (type : TypeName) (b : BoundMethod) {args : List Value}
    (hargs : ∀ v ∈ args, v.LiveBelow n) :
    (Step.construct scope callee type b args).Lives n Value.LiveBelow := by
  unfold Step.construct
  refine (lives_method? scope b).bind fun n₁ found hn₁ _ => ?_
  have hargs₁ : ∀ v ∈ args, v.LiveBelow n₁ := fun v hv => (hargs v hv).mono hn₁
  cases found with
  | some constructor =>
    dsimp only
    split
    · refine (lives_newObject type).bind fun n₂ v hn₂ hv => ?_
      have hreceiver : ∀ w ∈ some v, w.LiveBelow n₂ := fun w hw => Option.mem_some.1 hw ▸ hv
      exact (hc.method constructor hreceiver fun w hw => (hargs₁ w hw).mono hn₂).discard.bind
        fun _ _ hn₃ _ => .pure fun _ hn₄ => hv.mono (hn₃.trans hn₄)
    · exact hc.method constructor nofun hargs₁
  | none =>
    dsimp only
    split
    · exact lives_newObject type
    · exact .fail _

/-- Neither does writing a field of the host. -/
theorem keepsLive_set {a : Accessor} (ha : a.Live) (key : String) {target v : Value}
    (htarget : target.LiveBelow n) (hv : v.LiveBelow n) :
    KeepsLive n (fun _ _ => True) (a.set key target v) := by
  unfold Accessor.set
  split
  · rename_i write hwrite
    exact ha.set write hwrite n target v htarget hv
  · exact fun m hm _ => ⟨hm, le_rfl, trivial⟩

/-- Neither does writing a field. -/
theorem lives_storeField {f : FieldHandle} (hf : f.Live) {target v : Value}
    (htarget : target.LiveBelow n) (hv : v.LiveBelow n) :
    (Step.storeField f target v).Lives n fun _ _ => True := by
  unfold Step.storeField
  split
  · rename_i a haccessor
    refine .onMemory? fun m hm hn => ?_
    obtain ⟨hlive, hcount, -⟩ := keepsLive_set (hf a haccessor) f.key htarget hv m hm hn
    exact ⟨hlive, hcount, fun _ _ => trivial⟩
  · rename_i r _
    refine .modify fun s hs hn => ?_
    have hheap := hs.live.memory.heap.setField r f.name (hv.mono hn)
    exact ⟨⟨hs.live.withMemory (hs.live.memory.withHeap hheap le_rfl) le_rfl, hs.memo⟩, le_rfl⟩
  · exact .fail _
  · exact .fail _

/-- Neither does writing a static field. -/
theorem lives_storeStatic {f : FieldHandle} (hf : f.Live) {v : Value} (hv : v.LiveBelow n) :
    (Step.storeStatic f v).Lives n fun _ _ => True := by
  unfold Step.storeStatic
  split
  · rename_i a haccessor
    refine .onMemory? fun m hm hn => ?_
    have hnull : Value.null.LiveBelow n := trivial
    obtain ⟨hlive, hcount, -⟩ := keepsLive_set (hf a haccessor) f.key hnull hv m hm hn
    exact ⟨hlive, hcount, fun _ _ => trivial⟩
  · refine .modify fun s hs hn => ?_
    exact ⟨⟨⟨hs.live.memory, hs.live.statics.insert (hv.mono hn)⟩, hs.memo⟩, le_rfl⟩

/-- The items of a new array do not dangle. -/
theorem lives_freshItems {fill : Value} (hfill : fill.LiveBelow n) (count : Nat) :
    (Step.freshItems fill count).Lives n fun n' items => ∀ v ∈ items, v.LiveBelow n' := by
  induction count with
  | zero => exact .pure fun _ _ v hv => absurd hv (Array.not_mem_empty v)
  | succ count ih =>
    have hpush : ∀ {n' : Nat} {items : Array Value} {v : Value},
        (∀ w ∈ items, w.LiveBelow n') → v.LiveBelow n' → ∀ w ∈ items.push v, w.LiveBelow n' := by
      intro n' items v hitems hv w hw
      rcases Array.mem_push.1 hw with hw | rfl
      · exact hitems w hw
      · exact hv
    unfold Step.freshItems
    refine ih.bind fun n₁ items hn₁ hitems => ?_
    split
    · exact (lives_newObject _).map fun n₂ v hn₂ hv =>
        hpush (fun w hw => (hitems w hw).mono hn₂) hv
    · exact .pure fun n₂ hn₂ =>
        hpush (fun w hw => (hitems w hw).mono hn₂) (hfill.mono (hn₁.trans hn₂))

section host

variable (hs : scope.symbols.Live)

include hs

/-- A type that is resolved starts without dangling references. -/
theorem lives_resolveType (t : TypeName) :
    (Machine.resolve (scope.symbols.resolveType t)).Lives n fun _ handle => handle.Live :=
  .resolve (keeps_resolveType isFamily_true hs.gives t trivial)

/-- Its default does not dangle. -/
theorem lives_defaultValue (t : TypeName) : (scope.defaultValue t).Lives n Value.LiveBelow := by
  unfold Scope.defaultValue
  split
  · exact (lives_resolveType hs _).bind fun _ _ _ hhandle => .onMemory hhandle.keepsLive
  · exact .pure fun _ _ => trivial

/-- The default of a field does not dangle. -/
theorem lives_fieldDefault (f : FieldHandle) :
    (Step.fieldDefault scope f).Lives n Value.LiveBelow := by
  unfold Step.fieldDefault
  split
  · exact lives_defaultValue hs _
  · exact .pure fun _ _ => trivial

/-- A field that is read does not dangle. -/
theorem lives_loadField {f : FieldHandle} (hf : f.Live) {target : Value}
    (htarget : target.LiveBelow n) :
    (Step.loadField scope f target).Lives n Value.LiveBelow := by
  unfold Step.loadField
  split
  · rename_i a haccessor
    exact .onMemory? ((hf a haccessor).get n _ htarget)
  · refine .get_bind fun s hs' hn => ?_
    split
    · rename_i v hv
      exact .pure fun _ hn' => (hs'.live.memory.heap.field? hv).mono hn'
    · exact lives_fieldDefault hs f
  · exact .fail _
  · exact .fail _

/-- A static field that is read does not dangle. -/
theorem lives_loadStatic {f : FieldHandle} (hf : f.Live) :
    (Step.loadStatic scope f).Lives n Value.LiveBelow := by
  unfold Step.loadStatic
  split
  · rename_i a haccessor
    exact .onMemory? ((hf a haccessor).get n .null trivial)
  · refine .get_bind fun s hs' hn => ?_
    split
    · rename_i v hv
      exact .pure fun _ hn' => (hs'.live.statics.get? hv).mono hn'
    · exact lives_fieldDefault hs f

/-- A new array does not dangle. -/
theorem lives_makeArray (element : TypeName) (length : Int64) :
    (Step.makeArray scope element length).Lives n Value.LiveBelow := by
  unfold Step.makeArray
  split
  · exact .fail _
  · refine (lives_defaultValue hs element).bind fun n₁ fill _ hfill => ?_
    refine (lives_freshItems hfill _).bind fun n₂ items _ hitems => .onMemory fun m hm hn => ?_
    have hheap := hm.heap.newArray element fun v hv => (hitems v hv).mono hn
    exact ⟨hm.withHeap hheap le_rfl, le_rfl, trivial⟩

end host

/-! ## Instructions -/

/-- Control goes somewhere else in the frame, or back to the caller with a value that is no
reference at an address or above it. -/
def Flow.LiveBelow (n : Nat) : Flow → Prop
  | .leave v => v.LiveBelow n
  | _ => True

namespace FrameAction.Lives

variable {i : Instruction}

/-- The receiver that is popped, if there is one, does not dangle. -/
theorem popReceiver (m : Method) :
    FrameAction.Lives n (fun n' receiver => ∀ v ∈ receiver, v.LiveBelow n')
      (Step.popReceiver m) := by
  unfold Step.popReceiver
  split
  · exact .pure fun _ _ => nofun
  · refine pop.map fun n' v hv w hw => ?_
    exact Option.mem_some.1 hw ▸ hv

/-- A result that does not dangle may be pushed, if there is one. -/
theorem pushUnlessVoid (void : Bool) {v : Value} (hv : v.LiveBelow n) :
    FrameAction.Lives n (fun _ _ => True) (do unless void do FrameAction.push v) := by
  split
  · exact .pure fun _ _ => trivial
  · exact push hv

/-- Binding a reference leaves everything as it is. -/
theorem bound (ref : MethodRef) : FrameAction.Lives n (fun _ _ => True) (Step.bound ref) :=
  get.bind fun _ _ _ _ => ofExcept_any _

/-- The `Invoke` of a delegate leaves no reference dangling. -/
theorem invokeDelegate (hc : callee.Lives) (ref : MethodRef) :
    FrameAction.Lives n (fun _ _ => True) (Step.invokeDelegate callee ref) := by
  unfold Step.invokeDelegate
  refine (popMany _).bind fun n₁ args _ hargs => pop.bind fun n₂ target hn₂ _ => ?_
  split
  · have hargs' : ∀ v ∈ args, v.LiveBelow n₂ := fun v hv => (hargs v hv).mono hn₂
    exact (ofMachine (lives_callDelegate hc _ hargs')).bind fun _ _ _ hv => pushUnlessVoid _ hv
  · exact fail _
  · exact fail _

/-- Neither does making a delegate of a function. -/
theorem newDelegate : FrameAction.Lives n (fun _ _ => True) Step.newDelegate := by
  unfold Step.newDelegate
  refine pop.bind fun n₁ v _ hv => ?_
  split
  · refine get.bind fun n₂ f hn₂ _ => ?_
    split
    · refine bind (modify fun g hg => ⟨hg.args, hg.locals, hg.stack⟩) fun n₃ _ hn₃ _ => ?_
      refine pop.discard.bind fun n₄ _ hn₄ _ => push (hv.mono ?_)
      exact hn₂.trans (hn₃.trans hn₄)
    · exact push (hv.mono hn₂)
  · exact malformed _

/-- Neither does popping an index. -/
theorem popIndex : FrameAction.Lives n (fun _ _ => True) Step.popIndex :=
  pop.bind fun _ _ _ _ => ofExcept_any _

/-- Neither does popping an array. -/
theorem popArray (operation : String) :
    FrameAction.Lives n (fun _ _ => True) (Step.popArray operation) := by
  unfold Step.popArray
  refine pop.bind fun _ _ _ _ => ?_
  split
  · exact .pure fun _ _ => trivial
  · exact fail _
  · exact fail _

/-- Nothing in the heap that is read dangles. -/
theorem heap : FrameAction.Lives n (fun n' h => h.Holds (Value.LiveBelow n')) Step.heap :=
  ofMachine (.get_bind fun _ hs _ => .pure fun _ hn => hs.live.memory.heap.mono fun _ hv =>
    hv.mono hn)

/-- The heap that is written is one that was read before, so the two are taken together: in between
no delegate is made. -/
theorem storeItem : FrameAction.Lives n (fun _ _ => True) Step.storeItem := by
  unfold Step.storeItem
  refine pop.bind fun n₁ v _ hv => popIndex.bind fun n₂ index hn₂ _ =>
    (popArray _).bind fun n₃ r hn₃ _ => ?_
  intro f hf s hs hn
  have hv' : v.LiveBelow s.memory.delegateCount := hv.mono (hn₂.trans (hn₃.trans hn))
  show Lived _ _ ((do
    let heap ← FrameAction.ofExcept (s.memory.heap.setItem r index v)
    FrameAction.ofMachine (modifyGet fun s : State =>
      ((), { s with memory := { s.memory with heap } })) : FrameAction Unit) f s)
  cases hset : s.memory.heap.setItem r index v with
  | error e => exact ⟨hs, le_rfl, nofun⟩
  | ok h =>
    have hsize : h.delegates.size = s.memory.delegateCount :=
      congrArg Array.size (Heap.delegates_setItem hset)
    have hheap : h.Holds (Value.LiveBelow h.delegates.size) := by
      rw [hsize]
      exact hs.live.memory.heap.setItem hv' hset
    have hlive := hs.live.memory.withHeap hheap hsize.ge
    refine ⟨⟨hs.live.withMemory hlive hsize.ge, hs.memo⟩, hsize.ge, ?_⟩
    rintro _ ⟨⟩
    exact ⟨trivial, hf.mono (hn.trans hsize.ge)⟩

/-- A branch leaves no reference dangling. -/
theorem branch (taken : Bool) : FrameAction.Lives n Flow.LiveBelow (Step.branch i taken) := by
  unfold Step.branch
  split
  · exact (targetOperand i).map fun _ _ _ => trivial
  · exact .pure fun _ _ => trivial

/-- Neither does a multi-way branch. -/
theorem multiway : FrameAction.Lives n Flow.LiveBelow (Step.multiway i) := by
  unfold Step.multiway
  refine pop.bind fun _ _ _ _ => (targetsOperand i).bind fun _ _ _ _ =>
    (ofExcept_any _).bind fun _ _ _ _ => ?_
  split
  · exact .pure fun _ _ => trivial
  · exact .pure fun _ _ => trivial

/-- **Neither does any transfer of control.** -/
theorem transfer (t : Transfer) : FrameAction.Lives n Flow.LiveBelow (transfer i t) := by
  unfold Hotswap.transfer
  cases t with
  | ret =>
    refine get.bind fun _ _ _ _ => ?_
    split
    · exact .pure fun _ _ => trivial
    · exact pop.map fun _ _ hv => hv
  | jump => exact branch true
  | branchIf test =>
    exact pop.bind fun _ _ _ _ => (ofExcept_any _).bind fun _ taken _ _ => branch taken
  | branchOn test =>
    exact popPair.bind fun _ _ _ _ => (ofExcept_any _).bind fun _ taken _ _ => branch taken
  | multiway => exact multiway

/-- Neither does loading a function: the new delegate is counted before it is referred to. -/
theorem loadFunction (virtual : Bool) :
    FrameAction.Lives n (fun _ _ => True) (Step.loadFunction scope virtual i) := by
  unfold Step.loadFunction
  refine (methodOperand i).bind fun _ ref _ _ => (bound ref).bind fun _ b _ _ =>
    (ofMachine (lives_method scope b)).bind fun _ m _ _ =>
    (popReceiver m).bind fun n₁ receiver _ hreceiver => ?_
  refine bind (modify fun g hg => ⟨hg.args, hg.locals, hg.stack⟩) fun n₂ _ hn₂ _ => ?_
  have hmake : KeepsLive n₂ (fun n' address => address < n') fun memory : Memory =>
      let made := memory.heap.newDelegate ⟨m, receiver⟩
      (made.1, { memory with heap := made.2 }) := by
    intro memory hmemory hn
    have hsize : (memory.heap.newDelegate ⟨m, receiver⟩).2.delegates.size =
        memory.delegateCount + 1 := Array.size_push _
    have hlt : memory.delegateCount <
        (memory.heap.newDelegate ⟨m, receiver⟩).2.delegates.size := by omega
    have hheap := (hmemory.heap.newDelegate (d := ⟨m, receiver⟩)
      fun v hv => (hreceiver v hv).mono (hn₂.trans hn)).mono fun _ hv => hv.mono hlt.le
    exact ⟨hmemory.withHeap hheap hlt.le, hlt.le, hlt⟩
  exact (ofMachine (.onMemory hmake)).bind fun _ _ _ haddress => push haddress

section host

variable (hs : scope.symbols.Live)

include hs

/-- A field in the operand is one without dangling references. -/
theorem fieldOperand :
    FrameAction.Lives n (fun _ f => f.Live) (fieldOperand scope i) := by
  unfold FrameAction.fieldOperand
  split
  · refine (ofExcept_any _).bind fun _ ref _ _ => get.bind fun _ f _ _ => ofMachine (.resolve ?_)
    refine (keeps_resolveField isFamily_true hs.gives ref f.context.over_true).conseq ?_
    rintro field ⟨-, haccessor⟩ a ha
    obtain ⟨key, hkey⟩ := haccessor a ha
    exact hs.fields key a hkey
  · exact malformed _

/-- Asking for the `Invoke` of a delegate leaves no reference dangling. -/
theorem isDelegateInvoke (ref : MethodRef) :
    FrameAction.Lives n (fun _ _ => True) (Step.isDelegateInvoke scope ref) := by
  unfold Step.isDelegateInvoke
  split
  · refine get.bind fun _ _ _ _ => (ofExcept_any _).bind fun _ t _ _ =>
      (ofMachine (lives_resolveType hs t).attempt).bind fun _ r _ _ => ?_
    split
    · exact .pure fun _ _ => trivial
    · exact .pure fun _ _ => trivial
  · exact .pure fun _ _ => trivial

/-- Neither does making an array. -/
theorem newArray : FrameAction.Lives n (fun _ _ => True) (Step.newArray scope i) :=
  pop.bind fun _ _ _ _ => (typeOperand i).bind fun _ element _ _ =>
    (ofExcept_any _).bind fun _ length _ _ =>
    (ofMachine (lives_makeArray hs element length)).bind fun _ _ _ hv => push hv

/-- The value that is popped along with a type does not dangle. -/
theorem popWithType :
    FrameAction.Lives n (fun n' p => p.1.LiveBelow n') (Step.popWithType scope i) :=
  pop.bind fun _ _ _ hv => (typeOperand i).bind fun _ t hn₁ _ =>
    (ofMachine (lives_resolveType hs t)).bind fun _ _ hn₂ _ =>
    .pure fun _ hn₃ => hv.mono (hn₁.trans (hn₂.trans hn₃))

variable (hc : callee.Lives)

include hc

/-- A call leaves no reference dangling. -/
theorem call : FrameAction.Lives n (fun _ _ => True) (Step.call scope callee i) := by
  unfold Step.call
  refine (methodOperand i).bind fun _ ref _ _ => (isDelegateInvoke hs ref).bind fun _ _ _ _ => ?_
  split
  · exact invokeDelegate hc ref
  · refine (bound ref).bind fun _ b _ _ => (ofMachine (lives_method scope b)).bind fun _ m _ _ =>
      (popMany _).bind fun n₁ args _ hargs => (popReceiver m).bind fun n₂ receiver hn₂ hr => ?_
    exact (ofMachine (hc.method m hr fun v hv => (hargs v hv).mono hn₂)).bind fun _ _ _ hv =>
      pushUnlessVoid _ hv

/-- Neither does making an object. -/
theorem newObject : FrameAction.Lives n (fun _ _ => True) (Step.newObject scope callee i) := by
  unfold Step.newObject
  refine (methodOperand i).bind fun _ ref _ _ => get.bind fun _ _ _ _ =>
    (ofExcept_any _).bind fun _ t _ _ =>
    (ofMachine (lives_resolveType hs t)).bind fun _ handle _ _ => ?_
  split
  · exact newDelegate
  · exact (bound ref).bind fun _ b _ _ => (popMany _).bind fun _ args _ hargs =>
      (ofMachine (lives_construct hc handle.name b hargs)).bind fun _ _ _ hv => push hv

/-- **Neither does any effect.** -/
theorem perform (e : Effect) (he : (Action.effect e).Live) :
    FrameAction.Lives n (fun _ _ => True) (perform scope callee i e) := by
  unfold Hotswap.perform
  cases e with
  | skip => exact .pure fun _ _ => trivial
  | loadArg slot =>
    exact (slotOf i slot).bind fun _ index _ _ => (loadArg index).bind fun _ _ _ hv => push hv
  | storeArg =>
    exact (slotOperand i).bind fun _ index _ _ => pop.bind fun _ _ _ hv => storeArg index hv
  | loadLocal slot =>
    exact (slotOf i slot).bind fun _ index _ _ => (loadLocal index).bind fun _ _ _ hv => push hv
  | storeLocal slot =>
    exact (slotOf i slot).bind fun _ index _ _ => pop.bind fun _ _ _ hv => storeLocal index hv
  | push v => exact push_plain he
  | pushInt32 =>
    refine (intOperand i).bind fun _ _ _ _ => ?_
    split
    · exact push_plain trivial
    · exact malformed _
  | pushInt64 => exact (intOperand i).bind fun _ _ _ _ => push_plain trivial
  | pushFloat32 => exact (floatOperand i).bind fun _ _ _ _ => push_plain trivial
  | pushFloat64 => exact (floatOperand i).bind fun _ _ _ _ => push_plain trivial
  | pushString => exact (stringOperand i).bind fun _ _ _ _ => push_plain trivial
  | dup => exact pop.bind fun _ _ _ hv => (push hv).bind fun _ _ hn _ => push (hv.mono hn)
  | pop => exact pop.discard
  | call => exact call hs hc
  | newObject => exact newObject hs hc
  | loadFunction virtual => exact loadFunction virtual
  | compare test =>
    exact popPair.bind fun _ _ _ _ => (ofExcept_any _).bind fun _ _ _ _ => push_plain trivial
  | binary operation =>
    exact popPair.bind fun n' _ _ _ => (ofExcept_value ((he _ _).live n')).bind
      fun _ _ _ hv => push hv
  | unary operation =>
    exact pop.bind fun n' v _ hv => (ofExcept_value (he n' v hv)).bind fun _ _ _ hw => push hw
  | cast =>
    exact (popWithType hs).bind fun _ p _ hv =>
      (ofExcept_value ((answerFrom_cast scope.symbols _ p.2).live hv)).bind fun _ _ _ hw => push hw
  | isInstance =>
    refine (popWithType hs).bind fun _ p _ hv => ?_
    dsimp only
    split
    · exact push hv
    · exact push_plain trivial
  | loadField =>
    exact (fieldOperand hs).bind fun _ f _ hf => pop.bind fun _ _ _ htarget =>
      (ofMachine (lives_loadField hs hf htarget)).bind fun _ _ _ hv => push hv
  | storeField =>
    exact (fieldOperand hs).bind fun _ f _ hf => popPair.bind fun _ _ _ hp =>
      ofMachine (lives_storeField hf hp.1 hp.2)
  | loadStatic =>
    exact (fieldOperand hs).bind fun _ f _ hf =>
      (ofMachine (lives_loadStatic hs hf)).bind fun _ _ _ hv => push hv
  | storeStatic =>
    exact (fieldOperand hs).bind fun _ f _ hf => pop.bind fun _ _ _ hv =>
      ofMachine (lives_storeStatic hf hv)
  | newArray => exact newArray hs
  | arrayLength =>
    exact (popArray _).bind fun _ _ _ _ => heap.bind fun _ _ _ _ => push_plain trivial
  | loadItem =>
    exact popIndex.bind fun _ _ _ _ => (popArray _).bind fun _ _ _ _ => heap.bind fun _ _ _ hh =>
      (ofExcept_value fun _ hv => hh.item trivial hv).bind fun _ _ _ hv => push hv
  | storeItem => exact storeItem
  | loadToken =>
    exact (tokenOperand i).bind fun _ t _ _ =>
      (ofMachine (lives_resolveType hs t)).discard.bind fun _ _ _ _ => push trivial
  | throw => exact pop.bind fun _ _ _ _ => heap.bind fun _ _ _ _ => fail _
  | rethrow => exact fail _
  | unsupported => exact get.bind fun _ _ _ _ => fail _

end host

end FrameAction.Lives

/-- **One instruction leaves no reference dangling**, neither in the state nor in its frame. -/
theorem lives_step (hs : scope.symbols.Live) (hc : callee.Lives) (i : Instruction) :
    FrameAction.Lives n Flow.LiveBelow (step scope callee i) := by
  have haction : i.opcode.action.Live := i.opcode.standard_action.live
  unfold step
  split
  · rename_i e he
    rw [he] at haction
    exact (FrameAction.Lives.perform hs hc e haction).bind fun _ _ _ _ =>
      .pure fun _ _ => trivial
  · exact .transfer _

/-! ## Rounds -/

/-- Neither does going to an offset. -/
theorem lives_enter (offset : UInt32) (dangling : Malformation) :
    FrameAction.Lives n (fun _ _ => True) (enter offset dangling) := by
  unfold enter
  refine FrameAction.Lives.get.bind fun _ _ _ _ => ?_
  split
  · exact .modify fun g hg => ⟨hg.args, hg.locals, hg.stack⟩
  · exact .malformed _

/-- Neither does going on to the next instruction. -/
theorem lives_advance (i : Instruction) : FrameAction.Lives n (fun _ _ => True) (advance i) := by
  unfold advance
  split
  · exact lives_enter _ _
  · exact .malformed _

/-- **Neither does a round.** -/
theorem lives_round (hs : scope.symbols.Live) (hc : callee.Lives) :
    FrameAction.Lives n (fun n' r => ∀ v ∈ r, v.LiveBelow n') (round scope callee) := by
  unfold round
  refine FrameAction.Lives.get.bind fun _ f _ _ => ?_
  split
  · exact .malformed _
  · refine (lives_step hs hc _).bind fun _ flow _ hflow => ?_
    cases flow with
    | next => exact (lives_advance _).bind fun _ _ _ _ => .pure fun _ _ => nofun
    | jump target => exact (lives_enter _ _).bind fun _ _ _ _ => .pure fun _ _ => nofun
    | leave v => exact .pure fun _ hn w hw => Option.mem_some.1 hw ▸ hflow.mono hn

/-- Neither does any number of rounds. -/
theorem lives_loop (hs : scope.symbols.Live) (hc : callee.Lives) (fuel : Nat) :
    FrameAction.Lives n Value.LiveBelow (loop scope callee fuel) := by
  induction fuel generalizing n with
  | zero => exact fun _ _ => .outOfFuel
  | succ fuel ih =>
    rw [loop_eq_round]
    refine (lives_round hs hc).bind fun _ r _ hr => ?_
    cases r with
    | none => exact ih
    | some v => exact .pure fun _ hn => (hr v rfl).mono hn

/-! ## Descriptors -/

/-- A frame begins without dangling references. -/
theorem lives_start (hs : scope.symbols.Live) (d : Descriptor) (context : GenericContext)
    {args : List Value} (hargs : ∀ v ∈ args, v.LiveBelow n) :
    (Frame.start scope d context args).Lives n fun n' f => f.LiveBelow n' := by
  have hlocals : ∀ {n : Nat}, (d.body.locals.mapM fun t => do
      scope.defaultValue (← Machine.ofExcept (context.close t))).Lives n
        fun n' (vs : List Value) => ∀ v ∈ vs, v.LiveBelow n' :=
    .mapM (fun t n' => (Machine.Lives.ofExcept fun _ _ _ _ => trivial).bind fun _ u _ _ =>
      lives_defaultValue hs u) _
  unfold Frame.start
  dsimp only
  split
  · exact (Machine.Lives.fail (Q := fun _ _ => True) _).bind fun _ _ hn _ =>
      hlocals.map fun _ _ hn' hvs => ⟨fun v hv => (hargs v hv).mono (hn.trans hn'), hvs, nofun⟩
  · exact hlocals.map fun _ _ hn hvs => ⟨fun v hv => (hargs v hv).mono hn, hvs, nofun⟩

/-- Running a descriptor leaves no reference dangling. -/
theorem lives_execute (hs : scope.symbols.Live) (hc : callee.Lives) (fuel : Nat) (d : Descriptor)
    (context : GenericContext) {args : List Value} (hargs : ∀ v ∈ args, v.LiveBelow n) :
    (execute scope callee fuel d context args).Lives n Value.LiveBelow := by
  have hrun : ∀ {n : Nat}, FrameAction.Lives n Value.LiveBelow (runFrame scope callee fuel) := by
    intro n
    unfold runFrame
    refine FrameAction.Lives.get.bind fun _ _ _ _ => ?_
    split
    · exact .malformed _
    · exact lives_loop hs hc fuel
  unfold execute
  refine (lives_start hs d context hargs).bind fun n' f _ hf => ?_
  show Machine.Lives n' _ (runFrame scope callee fuel f >>= fun r => pure r.1 : Machine Value)
  exact (hrun f hf).map fun _ _ _ hr => hr.1

/-- A receiver does not dangle when null stands for none. -/
theorem liveBelow_getD {receiver : Option Value} (h : ∀ v ∈ receiver, v.LiveBelow n) :
    (receiver.getD .null).LiveBelow n := by
  cases receiver with
  | none => trivial
  | some v => exact h v rfl

/-- The receiver and the arguments do not dangle as slots. -/
theorem liveBelow_slots (d : Descriptor) {receiver : Option Value} {args : List Value}
    (hreceiver : ∀ v ∈ receiver, v.LiveBelow n) (hargs : ∀ v ∈ args, v.LiveBelow n) :
    ∀ v ∈ slots d receiver args, v.LiveBelow n := by
  unfold slots
  split
  · exact hargs
  · exact List.forall_mem_cons.2 ⟨liveBelow_getD hreceiver, hargs⟩

/-! ## Programs of the host -/

/-- A program of the host that leaves no reference dangling from a memory does so in a state with
that memory. -/
theorem lived_run (hc : callee.Lives) {p : Host Value} {s : State} (hs : s.Steady)
    (hp : p.Live s.memory) :
    Lived s.memory.delegateCount Value.LiveBelow (p.run scope callee s) := by
  induction p generalizing s with
  | done v => exact ⟨hs, le_rfl, fun _ hv => Except.ok.inj hv ▸ hp⟩
  | fail e => exact ⟨hs, le_rfl, nofun⟩
  | read next ih => exact ih s.memory hs hp
  | write m next ih =>
    obtain ⟨hm, hcount, hnext⟩ := hp
    have hrest := ih (s := { s with memory := m }) ⟨hs.live.withMemory hm hcount, hs.memo⟩ hnext
    exact ⟨hrest.steady, hcount.trans hrest.count, hrest.result⟩
  | call signature receiver args next ih =>
    obtain ⟨hreceiver, hargs, hnext⟩ := hp
    have hcalled := (lives_method scope (.ofSignature signature none)).bind fun n' m hn _ =>
      hc.method m (fun v hv => (hreceiver v hv).mono hn) fun v hv => (hargs v hv).mono hn
    exact (hcalled.attempt s hs le_rfl).bind fun t r ht hcount hr =>
      ih r ht (hnext t.memory r ht.live.memory hcount hr)
  | callDelegate address args next ih =>
    obtain ⟨hargs, hnext⟩ := hp
    exact ((lives_callDelegate hc address hargs).attempt s hs le_rfl).bind
      fun t r ht hcount hr => ih r ht (hnext t.memory r ht.live.memory hcount hr)
  | reload c next ih =>
    exact ih s.catalogue (s := { s with catalogue := c })
      ⟨⟨hs.live.memory, hs.live.statics⟩, hs.memo⟩ (hp s.catalogue)

/-! ## Methods -/

/-- The bodies of methods leave no reference dangling if their callees do not. -/
theorem lives_runBody (hs : scope.symbols.Live) (hc : callee.Lives) (fuel : Nat) :
    Callee.Lives (runBody scope callee fuel) := by
  refine .ofMethod fun {n} m {receiver args} hreceiver hargs => ?_
  split
  · exact lives_execute hs hc fuel _ _ (liveBelow_slots _ hreceiver hargs)
  · split
    · rename_i code hcode
      intro s hsteady hn
      exact lived_run hc hsteady (hs.methods _ code hcode s.memory _ hsteady.live.memory
        ((liveBelow_getD hreceiver).mono hn) fun v hv => (hargs v hv).mono hn)
    · exact .fail _

/-- **A call leaves no reference dangling**, with everything that is called from it, and gives back
none that dangles. -/
theorem lives_call (hs : scope.symbols.Live) (fuel : Nat) : Callee.Lives (call scope fuel) := by
  induction fuel with
  | zero => exact .ofMethod fun _ _ _ _ _ => .outOfFuel
  | succ fuel ih => exact lives_runBody hs ih fuel

end Hotswap
