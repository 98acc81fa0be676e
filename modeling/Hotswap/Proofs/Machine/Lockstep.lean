import Hotswap.Proofs.Machine.Alike
import Hotswap.Proofs.Machine.Operators

/-!
# Instructions in lockstep

An instruction side by side with itself: from states that match and are over a family of types, it
has the same outcome and stays over the family.

The two sides may have different callees, as long as those run alike when they are called over the
family: methods that are bound in the scope, and delegates that the heap has (`Callee.Alike`). So
whatever callees do with other calls is without effect: an instruction that stays over the family
makes no such call.

Each operation of a frame and each part of an instruction has its rule, and `alike_step` puts the
rules together.
-/

namespace Hotswap

open FrameAction

variable {K : Catalogue → Catalogue → Prop} {P : TypeName → Prop} {α : Type}

/-! ## Operators -/

/-- A plain value mentions no type, so it is over every family. -/
theorem Value.IsPlain.over {v : Value} (h : v.IsPlain) : v.Over P := by
  cases v <;> trivial

/-- An answer that is plain is over every family. -/
theorem AnswerPlain.over {r : Except Error Value} (h : AnswerPlain r) : AnswerOver P r :=
  fun v hv => (h v hv).over

/-- An answer that is plain or one given value is over the family if that value is. -/
theorem AnswerFrom.over {v : Value} {r : Except Error Value} (h : AnswerFrom v r) (hv : v.Over P) :
    AnswerOver P r := by
  intro w hw
  rcases h w hw with hplain | rfl
  · exact hplain.over
  · exact hv

/-- An answer is over the family if its value is. -/
theorem answerOver_ok {v : Value} (h : v.Over P) : AnswerOver P (.ok v) :=
  fun _ hv => Except.ok.inj hv ▸ h

/-- An error is an answer over every family. -/
theorem answerOver_error (e : Error) : AnswerOver P (.error e) := nofun

/-- What an action makes of operands over the family is over the family. -/
def Action.Over (P : TypeName → Prop) : Action → Prop
  | .effect (.push v) => v.Over P
  | .effect (.binary operation) => ∀ a b, AnswerOver P (operation a b)
  | .effect (.unary operation) => ∀ v : Value, v.Over P → AnswerOver P (operation v)
  | _ => True

/-- An operator of the standard kind keeps to every family. -/
theorem Action.Standard.over {a : Action} (h : a.Standard) : a.Over P := by
  unfold Action.Over
  split
  case h_1 v => exact Value.IsPlain.over h
  case h_2 operation => exact fun a b => (IsBinary.plain h a b).over
  case h_3 operation => exact fun v hv => (IsUnary.answerFrom h v).over hv
  case h_4 => trivial

/-! ## The frame -/

namespace FrameAction.Alike

variable {Q : α → Prop}

/-- A value over the family may be pushed. -/
theorem push {v : Value} (hv : v.Over P) : Alike K P (fun _ => True) (push v) (push v) := by
  refine .modify fun f hf => ⟨hf.context, hf.args, hf.locals, fun w hw => ?_⟩
  rcases List.mem_cons.1 hw with rfl | hw
  · exact hv
  · exact hf.stack w hw

/-- An empty stack is the same fault on both sides. -/
theorem underflow : Alike K P Q (underflow : FrameAction α) underflow := get.bind fun _ _ => fail _

/-- The operand that is popped is over the family. -/
theorem pop : Alike K P (Value.Over P) pop pop := by
  unfold FrameAction.pop
  refine get.bind fun f hf => ?_
  split
  · exact underflow
  · rename_i v rest hstack
    have hv : v.Over P := hf.stack v (hstack ▸ List.mem_cons_self)
    have hrest : ∀ w ∈ rest, w.Over P := fun w hw =>
      hf.stack w (hstack ▸ List.mem_cons_of_mem v hw)
    refine bind (modify fun g hg => ?_) fun _ _ => .pure hv
    exact ⟨hg.context, hg.args, hg.locals, hrest⟩

/-- So are several operands. -/
theorem popMany (count : Nat) :
    Alike K P (fun vs => ∀ v ∈ vs, v.Over P) (popMany count) (popMany count) := by
  unfold FrameAction.popMany
  refine get.bind fun f hf => ?_
  dsimp only
  split
  · exact underflow
  · refine bind (modify fun g hg => ?_) fun _ _ => .pure fun v hv => ?_
    · exact ⟨hg.context, hg.args, hg.locals, fun v hv => hf.stack v (List.mem_of_mem_drop hv)⟩
    · exact hf.stack v (List.mem_of_mem_take (List.mem_reverse.1 hv))

/-- So are two. -/
theorem popPair : Alike K P (fun p => p.1.Over P ∧ p.2.Over P) popPair popPair :=
  pop.bind fun _ hb => pop.bind fun _ ha => .pure ⟨ha, hb⟩

/-- The argument that is read is over the family. -/
theorem loadArg (slot : Nat) : Alike K P (Value.Over P) (loadArg slot) (loadArg slot) := by
  unfold FrameAction.loadArg
  refine get.bind fun f hf => ?_
  split
  · rename_i v hv
    exact .pure (hf.args v (List.mem_of_getElem? hv))
  · exact malformed _

/-- A value over the family may be stored as an argument. -/
theorem storeArg (slot : Nat) {v : Value} (hv : v.Over P) :
    Alike K P (fun _ => True) (storeArg slot v) (storeArg slot v) := by
  unfold FrameAction.storeArg
  refine get.bind fun f hf => ?_
  split
  · refine modify fun g hg => ⟨hg.context, fun w hw => ?_, hg.locals, hg.stack⟩
    rcases List.mem_or_eq_of_mem_set hw with hw | rfl
    · exact hg.args w hw
    · exact hv
  · exact malformed _

/-- The local that is read is over the family. -/
theorem loadLocal (slot : Nat) : Alike K P (Value.Over P) (loadLocal slot) (loadLocal slot) := by
  unfold FrameAction.loadLocal
  refine get.bind fun f hf => ?_
  split
  · rename_i v hv
    exact .pure (hf.locals v (List.mem_of_getElem? hv))
  · exact malformed _

/-- A value over the family may be stored as a local. -/
theorem storeLocal (slot : Nat) {v : Value} (hv : v.Over P) :
    Alike K P (fun _ => True) (storeLocal slot v) (storeLocal slot v) := by
  unfold FrameAction.storeLocal
  refine get.bind fun f hf => ?_
  split
  · refine modify fun g hg => ⟨hg.context, hg.args, fun w hw => ?_, hg.stack⟩
    rcases List.mem_or_eq_of_mem_set hw with hw | rfl
    · exact hg.locals w hw
    · exact hv
  · exact malformed _

/-! ### The operand -/

variable (i : Instruction)

/-- A slot in the operand is the same on both sides. -/
theorem slotOperand : Alike K P (fun _ => True) (slotOperand i) (slotOperand i) := by
  unfold FrameAction.slotOperand
  split
  · exact .pure trivial
  · split
    · exact malformed _
    · exact .pure trivial
  · exact malformed _

/-- So is a slot that may be part of the opcode. -/
theorem slotOf (slot : Option Nat) : Alike K P (fun _ => True) (slotOf slot i) (slotOf slot i) := by
  unfold FrameAction.slotOf
  split
  · exact .pure trivial
  · exact slotOperand i

/-- So is an integer. -/
theorem intOperand : Alike K P (fun _ => True) (intOperand i) (intOperand i) := by
  unfold FrameAction.intOperand
  split
  · exact .pure trivial
  · exact malformed _

/-- So is a floating-point number. -/
theorem floatOperand : Alike K P (fun _ => True) (floatOperand i) (floatOperand i) := by
  unfold FrameAction.floatOperand
  split
  · exact .pure trivial
  · exact .pure trivial
  · exact malformed _

/-- So is a string. -/
theorem stringOperand : Alike K P (fun _ => True) (stringOperand i) (stringOperand i) := by
  unfold FrameAction.stringOperand
  split
  · exact .pure trivial
  · exact malformed _

/-- So is a branch target. -/
theorem targetOperand : Alike K P (fun _ => True) (targetOperand i) (targetOperand i) := by
  unfold FrameAction.targetOperand
  split
  · exact .pure trivial
  · exact malformed _

/-- So are several. -/
theorem targetsOperand : Alike K P (fun _ => True) (targetsOperand i) (targetsOperand i) := by
  unfold FrameAction.targetsOperand
  split
  · exact .pure trivial
  · exact malformed _

/-- So is a method reference. -/
theorem methodOperand : Alike K P (fun _ => True) (methodOperand i) (methodOperand i) := by
  unfold FrameAction.methodOperand
  split
  · exact ofExcept fun _ _ => trivial
  · exact malformed _

/-- A type that is written in a body is closed into the family. -/
theorem closedType (hP : IsFamily P) (text : String) :
    Alike K P P (closedType text) (closedType text) := by
  unfold FrameAction.closedType
  refine bind (ofExcept fun _ _ => trivial) fun t (_ : True) => ?_
  exact get.bind fun f hf => ofExcept fun u hu => hf.context.close hP hu

/-- A type in the operand is closed in the frame, and then it is in the family. -/
theorem typeOperand (hP : IsFamily P) : Alike K P P (typeOperand i) (typeOperand i) := by
  unfold FrameAction.typeOperand
  split
  · exact closedType hP _
  · exact malformed _

/-- So is a type that a token stands for. -/
theorem tokenOperand (hP : IsFamily P) : Alike K P P (tokenOperand i) (tokenOperand i) := by
  unfold FrameAction.tokenOperand
  split
  · exact closedType hP _
  · exact malformed _

end FrameAction.Alike

/-! ## Scopes and callees -/

/-- A scope whose host stays over the family. -/
structure Scope.Over (P : TypeName → Prop) (scope : Scope) : Prop where
  /-- Closing a name stays in the family. -/
  family : IsFamily P
  /-- What the host has registered stays over the family. -/
  symbols : scope.symbols.Over P

/-- A bound method as there is one where a method is called: of a reference in a body, or of a
signature that code of the host calls. -/
inductive BoundMethod.FromSite : BoundMethod → Prop
  /-- A reference that is bound. -/
  | ofRef {ref : MethodRef} {caller : GenericContext} {b : BoundMethod}
      (h : BoundMethod.ofRef ref caller = .ok b) : FromSite b
  /-- A signature of the host. -/
  | ofSignature (s : Signature) : FromSite (.ofSignature s none)

/-- A method whose body has been chosen in a scope: it runs a descriptor if the catalogue of the
scope has one under a text of the bound method, and that descriptor. -/
def Scope.Binds (scope : Scope) (m : Method) : Prop :=
  ∃ b : BoundMethod, b.FromSite ∧ m.signature = b.signature ∧ m.context = b.context ∧
    ∀ d, m.target = .patched d ↔ scope.catalogue.find? b.keys = some d

/-- Two callees that run alike what can be called, as long as it is called over the family. -/
structure Callee.Alike (scope : Scope) (K : Catalogue → Catalogue → Prop) (P : TypeName → Prop)
    (callee callee' : Callee) : Prop where
  /-- A method that is bound in the scope is run alike. -/
  method : ∀ {m : Method} {receiver : Option Value} {args : List Value},
    m.Over P ∧ scope.Binds m → (∀ v ∈ receiver, v.Over P) → (∀ v ∈ args, v.Over P) →
    Machine.Alike K P (Value.Over P) (callee m receiver args) (callee' m receiver args)
  /-- A delegate that the heap has is run alike. -/
  delegate : ∀ {d : Delegate} {args : List Value}, d.Over P → (∀ v ∈ args, v.Over P) →
    ∀ s s' : State, s.Matches K s' → s.Over P → d ∈ s.memory.heap.delegates →
      SameOutcome K P (Value.Over P) (callee.delegate d args s) (callee'.delegate d args s')

/-- If methods are run alike, so are delegates that are run as their methods are. -/
theorem Callee.Alike.ofMethod {scope : Scope}
    {run run' : Method → Option Value → List Value → Machine Value}
    (h : ∀ {m : Method} {receiver : Option Value} {args : List Value}, m.Over P →
      (∀ v ∈ receiver, v.Over P) → (∀ v ∈ args, v.Over P) →
      Machine.Alike K P (Value.Over P) (run m receiver args) (run' m receiver args)) :
    (Callee.ofMethod run).Alike scope K P (Callee.ofMethod run') where
  method hm := h hm.1
  delegate hd hargs s s' hs hover _ := h hd.method hd.receiver hargs s s' hs hover

/-! ## Computations of the machine in an instruction -/

section parts

variable {scope : Scope} {callee callee' : Callee}

/-- A type of the family is resolved alike. -/
theorem alike_resolveType (hs : scope.Over P) {t : TypeName} (ht : P t) :
    Machine.Alike K P (TypeHandle.Over P) (Machine.resolve (scope.symbols.resolveType t))
      (Machine.resolve (scope.symbols.resolveType t)) :=
  .resolve (keepsMemo_resolveType hs.family hs.symbols t ht)

/-- An object of a type of the family is made alike. -/
theorem alike_newObject {type : TypeName} (h : P type) :
    Machine.Alike K P (Value.Over P) (Machine.newObject type) (Machine.newObject type) :=
  .onMemory (keepsMemory_newObject h)

/-- The default of a type of the family is over the family. -/
theorem alike_defaultValue (hs : scope.Over P) {t : TypeName} (ht : P t) :
    Machine.Alike K P (Value.Over P) (scope.defaultValue t) (scope.defaultValue t) := by
  unfold Scope.defaultValue
  split
  · exact (alike_resolveType hs ht).bind fun handle hhandle => .onMemory hhandle.keepsMemory
  · exact .pure trivial

/-- A method is searched for alike, and what is found is bound in the scope. -/
theorem alike_method? (scope : Scope) {b : BoundMethod} (hb : b.Over P ∧ b.FromSite) :
    Machine.Alike K P (fun found => ∀ m ∈ found, m.Over P ∧ scope.Binds m) (scope.method? b)
      (scope.method? b) := by
  unfold Scope.method?
  split
  · rename_i d hd
    refine .pure ?_
    rintro _ ⟨⟩
    refine ⟨⟨hb.1.signature, hb.1.context⟩, b, hb.2, rfl, rfl, fun d' => ?_⟩
    rw [hd, Target.patched.injEq, Option.some.injEq]
  · rename_i hd
    refine (Machine.Alike.resolve (keepsMemo_hostMethod? scope.symbols b)).bind fun found _ => ?_
    refine .pure fun m hm => ?_
    obtain ⟨h, -, rfl⟩ := Option.map_eq_some_iff.1 hm
    refine ⟨⟨hb.1.signature, hb.1.context⟩, b, hb.2, rfl, rfl, fun d' => ?_⟩
    rw [hd]
    exact ⟨nofun, nofun⟩

/-- So it is where there has to be one. -/
theorem alike_method (scope : Scope) {b : BoundMethod} (hb : b.Over P ∧ b.FromSite) :
    Machine.Alike K P (fun m => m.Over P ∧ scope.Binds m) (scope.method b) (scope.method b) := by
  unfold Scope.method
  refine (alike_method? scope hb).bind fun found hfound => ?_
  split
  · exact .pure (hfound _ rfl)
  · exact .fail _

/-- A delegate is called alike if the callees are alike. -/
theorem alike_callDelegate (hc : callee.Alike scope K P callee') (address : Nat) {args : List Value}
    (hargs : ∀ v ∈ args, v.Over P) :
    Machine.Alike K P (Value.Over P) (Step.callDelegate callee address args)
      (Step.callDelegate callee' address args) := by
  unfold Step.callDelegate
  -- The delegate is called in the state in which it is found.
  refine .get_bind_at fun s s' hs hover => ?_
  rw [← hs.memory]
  cases hd : s.memory.heap.delegate? address with
  | none => exact .stopped hs hover
  | some d =>
    have hmem : d ∈ s.memory.heap.delegates := Array.mem_of_getElem? hd
    have hd := hover.memory.heap.delegates d hmem
    exact hc.delegate hd hargs s s' hs hover hmem

/-- An object is constructed alike if the callees are alike. -/
theorem alike_construct (hc : callee.Alike scope K P callee') {type : TypeName} (htype : P type)
    {b : BoundMethod} (hb : b.Over P ∧ b.FromSite) {args : List Value}
    (hargs : ∀ v ∈ args, v.Over P) :
    Machine.Alike K P (Value.Over P) (Step.construct scope callee type b args)
      (Step.construct scope callee' type b args) := by
  unfold Step.construct
  refine (alike_method? scope hb).bind fun found hfound => ?_
  split
  · rename_i constructor
    have hconstructor := hfound constructor rfl
    split
    · refine (alike_newObject htype).bind fun v hv => ?_
      have hreceiver : ∀ w ∈ some v, w.Over P := by
        rintro _ ⟨⟩
        exact hv
      refine (hc.method hconstructor hreceiver hargs).discard.bind fun _ _ => ?_
      exact .pure hv
    · exact hc.method hconstructor nofun hargs
  · split
    · exact alike_newObject htype
    · exact .fail _

/-- The default of a field over the family is over the family. -/
theorem alike_fieldDefault (hs : scope.Over P) {f : FieldHandle} (hf : f.Over P) :
    Machine.Alike K P (Value.Over P) (Step.fieldDefault scope f) (Step.fieldDefault scope f) := by
  unfold Step.fieldDefault
  split
  · rename_i t ht
    exact alike_defaultValue hs (hf.fieldType t ht)
  · exact .pure trivial

/-- A field is read alike. -/
theorem alike_loadField (hs : scope.Over P) {f : FieldHandle} (hf : f.Over P) {target : Value}
    (htarget : target.Over P) :
    Machine.Alike K P (Value.Over P) (Step.loadField scope f target)
      (Step.loadField scope f target) := by
  unfold Step.loadField
  split
  · rename_i a ha
    exact .onMemory? ((hf.accessor a ha).get _ htarget)
  · refine .get_bind fun s s' hagrees hover => ?_
    rw [← hagrees.memory]
    split
    · rename_i v hv
      exact .pure (hover.memory.heap.field? hv)
    · exact alike_fieldDefault hs hf
  · exact .fail _
  · exact .fail _

/-- A field of the host is written alike. -/
theorem keepsMemory_set {a : Accessor} (ha : a.Over P) (key : String) {target v : Value}
    (htarget : target.Over P) (hv : v.Over P) :
    KeepsMemory P (fun _ => True) (a.set key target v) := by
  unfold Accessor.set
  split
  · rename_i write hwrite
    exact ha.set write hwrite target v htarget hv
  · exact fun m hm => ⟨trivial, hm⟩

/-- A change of memory to what matching states make of their memory. -/
theorem alike_modifyMemory {g : Memory → Memory} (hg : ∀ m : Memory, m.Over P → (g m).Over P) :
    Machine.Alike K P (fun _ => True)
      (modify fun s => { s with memory := g s.memory } : Machine Unit)
      (modify fun s => { s with memory := g s.memory }) :=
  .modify (fun _ _ hs => ⟨⟨congrArg g hs.memory, hs.statics, hs.memo⟩, hs.catalogue⟩) fun _ hover =>
    ⟨hg _ hover.memory, hover.statics, hover.memo⟩

/-- A field is written alike. -/
theorem alike_storeField {f : FieldHandle} (hf : f.Over P) {target v : Value}
    (htarget : target.Over P) (hv : v.Over P) :
    Machine.Alike K P (fun _ => True) (Step.storeField f target v)
      (Step.storeField f target v) := by
  unfold Step.storeField
  split
  · rename_i a ha
    refine .onMemory? fun m hm => ?_
    exact ⟨fun _ _ => trivial, (keepsMemory_set (hf.accessor a ha) f.key htarget hv m hm).2⟩
  · rename_i r _
    exact alike_modifyMemory (g := fun m => { m with heap := m.heap.setField r f.name v })
      fun m hm => ⟨hm.heap.setField r f.name hv, hm.cells⟩
  · exact .fail _
  · exact .fail _

/-- A static field is read alike. -/
theorem alike_loadStatic (hs : scope.Over P) {f : FieldHandle} (hf : f.Over P) :
    Machine.Alike K P (Value.Over P) (Step.loadStatic scope f) (Step.loadStatic scope f) := by
  unfold Step.loadStatic
  split
  · rename_i a ha
    exact .onMemory? ((hf.accessor a ha).get .null trivial)
  · refine .get_bind fun s s' hagrees hover => ?_
    rw [← hagrees.statics]
    split
    · rename_i v hv
      exact .pure (hover.statics.get? hv)
    · exact alike_fieldDefault hs hf

/-- A static field is written alike. -/
theorem alike_storeStatic {f : FieldHandle} (hf : f.Over P) {v : Value} (hv : v.Over P) :
    Machine.Alike K P (fun _ => True) (Step.storeStatic f v) (Step.storeStatic f v) := by
  unfold Step.storeStatic
  split
  · rename_i a ha
    have hnull : Value.Over P .null := trivial
    refine .onMemory? fun m hm => ?_
    exact ⟨fun _ _ => trivial, (keepsMemory_set (hf.accessor a ha) f.key hnull hv m hm).2⟩
  · refine .modify (fun s s' hs => ⟨⟨hs.memory, ?_, hs.memo⟩, hs.catalogue⟩) fun s hover =>
      ⟨hover.memory, hover.statics.insert hv, hover.memo⟩
    exact congrArg (fun statics => Table.insert statics f.key v) hs.statics

/-- The items of a new array are over the family if what it is filled with is. -/
theorem alike_freshItems {fill : Value} (hfill : fill.Over P) (count : Nat) :
    Machine.Alike K P (fun items => ∀ v ∈ items, v.Over P) (Step.freshItems fill count)
      (Step.freshItems fill count) := by
  induction count with
  | zero => exact .pure fun v hv => absurd hv (Array.not_mem_empty v)
  | succ count ih =>
    unfold Step.freshItems
    refine ih.bind fun items hitems => ?_
    have hpush : ∀ v : Value, v.Over P → ∀ w ∈ items.push v, w.Over P := by
      intro v hv w hw
      rcases Array.mem_push.1 hw with hw | rfl
      · exact hitems w hw
      · exact hv
    split
    · exact (alike_newObject hfill).bind fun v hv => .pure (hpush v hv)
    · exact .pure (hpush _ hfill)

/-- An array is made alike. -/
theorem alike_makeArray (hs : scope.Over P) {element : TypeName} (helement : P element)
    (length : Int64) :
    Machine.Alike K P (Value.Over P) (Step.makeArray scope element length)
      (Step.makeArray scope element length) := by
  unfold Step.makeArray
  split
  · exact .fail _
  · refine (alike_defaultValue hs helement).bind fun fill hfill => ?_
    refine (alike_freshItems hfill _).bind fun items hitems => .onMemory fun m hm => ?_
    exact ⟨helement, hm.heap.newArray element hitems, hm.cells⟩

end parts

/-! ## Instructions -/

/-- A result that is given back to the caller is over the family. -/
def Flow.Over (P : TypeName → Prop) : Flow → Prop
  | .leave v => v.Over P
  | _ => True

namespace FrameAction.Alike

variable {scope : Scope} {callee callee' : Callee} {i : Instruction}

/-- A field in the operand is resolved alike. -/
theorem fieldOperand (hs : scope.Over P) :
    Alike K P (FieldHandle.Over P) (fieldOperand scope i) (fieldOperand scope i) := by
  unfold FrameAction.fieldOperand
  split
  · refine bind (ofExcept fun _ _ => trivial) fun ref (_ : True) => get.bind fun f hf => ?_
    exact ofMachine (.resolve (keepsMemo_resolveField hs.family hs.symbols ref hf.context))
  · exact malformed _

/-- The `Invoke` of a delegate is alike. -/
theorem invokeDelegate (hc : callee.Alike scope K P callee') (ref : MethodRef) :
    Alike K P (fun _ => True) (Step.invokeDelegate callee ref)
      (Step.invokeDelegate callee' ref) := by
  unfold Step.invokeDelegate
  refine (popMany _).bind fun args hargs => pop.bind fun target _ => ?_
  split
  · refine (ofMachine (alike_callDelegate hc _ hargs)).bind fun result hresult => ?_
    split
    · exact .pure trivial
    · exact push hresult
  · exact fail _
  · exact fail _

/-- Whether a reference is to such an `Invoke` is found alike. -/
theorem isDelegateInvoke (hs : scope.Over P) (ref : MethodRef) :
    Alike K P (fun _ => True) (Step.isDelegateInvoke scope ref)
      (Step.isDelegateInvoke scope ref) := by
  unfold Step.isDelegateInvoke
  split
  · refine get.bind fun f hf => ?_
    refine bind (ofExcept fun u hu => hf.context.close hs.family hu) fun t ht => ?_
    refine (ofMachine (alike_resolveType hs ht).attempt).bind fun r _ => ?_
    split
    · exact .pure trivial
    · exact .pure trivial
  · exact .pure trivial

/-- A reference is bound alike, from a site. -/
theorem bound (hP : IsFamily P) (ref : MethodRef) :
    Alike K P (fun b => b.Over P ∧ b.FromSite) (Step.bound ref) (Step.bound ref) := by
  unfold Step.bound
  refine get.bind fun f hf => ofExcept fun b hb => ?_
  exact ⟨BoundMethod.over_of_ofRef hP hf.context hb, .ofRef hb⟩

/-- The receiver that is popped, if there is one, is over the family. -/
theorem popReceiver (m : Method) :
    Alike K P (fun receiver => ∀ v ∈ receiver, v.Over P) (Step.popReceiver m)
      (Step.popReceiver m) := by
  unfold Step.popReceiver
  split
  · exact .pure nofun
  · refine pop.map fun v hv => ?_
    rintro _ ⟨⟩
    exact hv

/-- A call is alike if the callees are. -/
theorem call (hs : scope.Over P) (hc : callee.Alike scope K P callee') :
    Alike K P (fun _ => True) (Step.call scope callee i) (Step.call scope callee' i) := by
  unfold Step.call
  refine (methodOperand i).bind fun ref _ => (isDelegateInvoke hs ref).bind fun b _ => ?_
  split
  · exact invokeDelegate hc ref
  · refine (bound hs.family ref).bind fun b hb => ?_
    refine (ofMachine (alike_method scope hb)).bind fun m hm => ?_
    refine (popMany _).bind fun args hargs => (popReceiver m).bind fun receiver hreceiver => ?_
    refine (ofMachine (hc.method hm hreceiver hargs)).bind fun result hresult => ?_
    split
    · exact .pure trivial
    · exact push hresult

/-- A delegate is made of a function alike. -/
theorem newDelegate : Alike K P (fun _ => True) Step.newDelegate Step.newDelegate := by
  unfold Step.newDelegate
  refine pop.bind fun v hv => ?_
  split
  · refine get.bind fun f _ => ?_
    split
    · refine bind (modify fun g hg => ?_) fun _ _ => pop.discard.bind fun _ _ => push hv
      exact ⟨hg.context, hg.args, hg.locals, hg.stack⟩
    · exact push hv
  · exact malformed _

/-- An object is made alike if the callees are alike. -/
theorem newObject (hs : scope.Over P) (hc : callee.Alike scope K P callee') :
    Alike K P (fun _ => True) (Step.newObject scope callee i) (Step.newObject scope callee' i) := by
  unfold Step.newObject
  refine (methodOperand i).bind fun ref _ => get.bind fun f hf => ?_
  refine bind (ofExcept fun u hu => hf.context.close hs.family hu) fun t ht => ?_
  refine (ofMachine (alike_resolveType hs ht)).bind fun handle hhandle => ?_
  split
  · exact newDelegate
  · refine (bound hs.family ref).bind fun b hb => (popMany _).bind fun args hargs => ?_
    refine (ofMachine (alike_construct hc hhandle.name hb hargs)).bind fun v hv => ?_
    exact push hv

/-- A function is loaded alike. -/
theorem loadFunction (hs : scope.Over P) (virtual : Bool) :
    Alike K P (fun _ => True) (Step.loadFunction scope virtual i)
      (Step.loadFunction scope virtual i) := by
  unfold Step.loadFunction
  refine (methodOperand i).bind fun ref _ => (bound hs.family ref).bind fun b hb => ?_
  refine (ofMachine (alike_method scope hb)).bind fun m hm => ?_
  refine (popReceiver m).bind fun receiver hreceiver => ?_
  refine bind (modify fun g hg => ⟨hg.context, hg.args, hg.locals, hg.stack⟩) fun _ _ => ?_
  refine bind (ofMachine (Q := fun _ => True) (.onMemory fun memory hmemory => ?_))
    fun _ _ => push trivial
  exact ⟨trivial, hmemory.heap.newDelegate ⟨hm.1, hreceiver⟩, hmemory.cells⟩

/-- An index is popped alike. -/
theorem popIndex : Alike K P (fun _ => True) Step.popIndex Step.popIndex := by
  unfold Step.popIndex
  exact pop.bind fun _ _ => ofExcept fun _ _ => trivial

/-- An array is popped alike. -/
theorem popArray (operation : String) :
    Alike K P (fun _ => True) (Step.popArray operation) (Step.popArray operation) := by
  unfold Step.popArray
  refine pop.bind fun v _ => ?_
  split
  · exact .pure trivial
  · exact fail _
  · exact fail _

/-- The heap that is read is over the family. -/
theorem heap : Alike K P (Heap.Over P) Step.heap Step.heap := by
  unfold Step.heap
  refine ofMachine (.get_bind fun s s' hs hover => ?_)
  rw [← hs.memory]
  exact .pure hover.memory.heap

/-- An array is made alike. -/
theorem newArray (hs : scope.Over P) :
    Alike K P (fun _ => True) (Step.newArray scope i) (Step.newArray scope i) := by
  unfold Step.newArray
  refine pop.bind fun length _ => (typeOperand i hs.family).bind fun element helement => ?_
  refine bind (ofExcept fun _ _ => trivial) fun n (_ : True) => ?_
  exact (ofMachine (alike_makeArray hs helement n)).bind fun v hv => push hv

/-- An item is stored alike. -/
theorem storeItem : Alike K P (fun _ => True) Step.storeItem Step.storeItem := by
  unfold Step.storeItem
  refine pop.bind fun v hv => popIndex.bind fun index _ => (popArray _).bind fun r _ => ?_
  refine heap.bind fun h hh => bind (ofExcept fun h' hset => hh.setItem hv hset) fun h' hh' => ?_
  exact ofMachine (alike_modifyMemory (g := fun m => { m with heap := h' }) fun m hm =>
    ⟨hh', hm.cells⟩)

/-- A value is popped, and a type in the operand is resolved, alike. -/
theorem popWithType (hs : scope.Over P) :
    Alike K P (fun p => p.1.Over P) (Step.popWithType scope i) (Step.popWithType scope i) := by
  unfold Step.popWithType
  refine pop.bind fun v hv => (typeOperand i hs.family).bind fun t ht => ?_
  exact (ofMachine (alike_resolveType hs ht)).bind fun _ _ => .pure hv

/-- **An effect is alike** if the callees are. -/
theorem perform (hs : scope.Over P) (hc : callee.Alike scope K P callee') (e : Effect)
    (he : (Action.effect e).Over P) :
    Alike K P (fun _ => True) (perform scope callee i e) (perform scope callee' i e) := by
  unfold Hotswap.perform
  cases e with
  | skip => exact .pure trivial
  | loadArg slot =>
    exact (slotOf i slot).bind fun n _ => (loadArg n).bind fun v hv => push hv
  | storeArg => exact (slotOperand i).bind fun n _ => pop.bind fun v hv => storeArg n hv
  | loadLocal slot =>
    exact (slotOf i slot).bind fun n _ => (loadLocal n).bind fun v hv => push hv
  | storeLocal slot => exact (slotOf i slot).bind fun n _ => pop.bind fun v hv => storeLocal n hv
  | push v => exact push he
  | pushInt32 =>
    refine (intOperand i).bind fun n _ => ?_
    split
    · exact push trivial
    · exact malformed _
  | pushInt64 => exact (intOperand i).bind fun n _ => push trivial
  | pushFloat32 => exact (floatOperand i).bind fun x _ => push trivial
  | pushFloat64 => exact (floatOperand i).bind fun x _ => push trivial
  | pushString => exact (stringOperand i).bind fun text _ => push trivial
  | dup => exact pop.bind fun v hv => (push hv).bind fun _ _ => push hv
  | pop => exact pop.discard
  | call => exact call hs hc
  | newObject => exact newObject hs hc
  | loadFunction virtual => exact loadFunction hs virtual
  | compare test =>
    refine popPair.bind fun p _ => bind (ofExcept fun _ _ => trivial) fun b (_ : True) => ?_
    exact push trivial
  | binary operation =>
    exact popPair.bind fun p _ => (ofExcept (he p.1 p.2)).bind fun v hv => push hv
  | unary operation => exact pop.bind fun v hv => (ofExcept (he v hv)).bind fun w hw => push hw
  | cast =>
    refine (popWithType hs).bind fun p hp => ?_
    exact (ofExcept ((answerFrom_cast scope.symbols _ p.2).over hp)).bind fun v hv => push hv
  | isInstance =>
    refine (popWithType hs).bind fun p hp => push ?_
    split
    · exact hp
    · trivial
  | loadField =>
    refine (fieldOperand hs).bind fun f hf => pop.bind fun target htarget => ?_
    exact (ofMachine (alike_loadField hs hf htarget)).bind fun v hv => push hv
  | storeField =>
    refine (fieldOperand hs).bind fun f hf => popPair.bind fun p hp => ?_
    exact ofMachine (alike_storeField hf hp.1 hp.2)
  | loadStatic =>
    refine (fieldOperand hs).bind fun f hf => ?_
    exact (ofMachine (alike_loadStatic hs hf)).bind fun v hv => push hv
  | storeStatic =>
    refine (fieldOperand hs).bind fun f hf => pop.bind fun v hv => ?_
    exact ofMachine (alike_storeStatic hf hv)
  | newArray => exact newArray hs
  | arrayLength => exact (popArray _).bind fun r _ => heap.bind fun h _ => push trivial
  | loadItem =>
    refine popIndex.bind fun index _ => (popArray _).bind fun r _ => heap.bind fun h hh => ?_
    exact bind (ofExcept fun v hv => hh.item hv) fun v hv => push hv
  | storeItem => exact storeItem
  | loadToken =>
    refine (tokenOperand i hs.family).bind fun t ht => ?_
    exact (ofMachine (alike_resolveType hs ht)).discard.bind fun _ _ => push ht
  | throw => exact pop.bind fun v _ => heap.bind fun h _ => fail _
  | rethrow => exact fail _
  | unsupported => exact get.bind fun f _ => fail _

/-- A branch goes to the same offset. -/
theorem branch (taken : Bool) :
    Alike K P (Flow.Over P) (Step.branch i taken) (Step.branch i taken) := by
  unfold Step.branch
  split
  · exact (targetOperand i).map fun _ _ => trivial
  · exact .pure trivial

/-- A multi-way branch goes to the same offset. -/
theorem multiway : Alike K P (Flow.Over P) (Step.multiway i) (Step.multiway i) := by
  unfold Step.multiway
  refine pop.bind fun v _ => (targetsOperand i).bind fun targets _ => ?_
  refine bind (ofExcept fun _ _ => trivial) fun position (_ : True) => ?_
  split
  · exact .pure trivial
  · exact .pure trivial

/-- **A transfer of control is alike.** -/
theorem transfer (t : Transfer) : Alike K P (Flow.Over P) (transfer i t) (transfer i t) := by
  unfold Hotswap.transfer
  cases t with
  | ret =>
    refine get.bind fun f _ => ?_
    split
    · exact .pure trivial
    · exact pop.map fun v hv => hv
  | jump => exact branch true
  | branchIf test =>
    exact pop.bind fun v _ => bind (ofExcept fun _ _ => trivial) fun b (_ : True) => branch b
  | branchOn test =>
    exact popPair.bind fun p _ => bind (ofExcept fun _ _ => trivial) fun b (_ : True) => branch b
  | multiway => exact multiway

end FrameAction.Alike

/-- **One instruction in lockstep.** From one frame over the family, with callees that run alike, an
instruction has the same outcome and stays over the family. -/
theorem alike_step {scope : Scope} {callee callee' : Callee} (hs : scope.Over P)
    (hc : callee.Alike scope K P callee') (i : Instruction) :
    FrameAction.Alike K P (Flow.Over P) (step scope callee i) (step scope callee' i) := by
  have hover : i.opcode.action.Over P := i.opcode.standard_action.over
  unfold step
  split
  · rename_i e he
    rw [he] at hover
    exact (FrameAction.Alike.perform hs hc e hover).bind fun _ _ => .pure trivial
  · exact .transfer _

end Hotswap
