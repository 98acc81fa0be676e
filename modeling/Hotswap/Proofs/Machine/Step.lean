import Hotswap.Proofs.Machine.Ordinary

/-!
# What one instruction can do

The contract of `step`, for an instruction `i` at an offset `o` of a descriptor `d` (`inStep_step`):

* it leaves the frame with `d` at `o`;
* it stops with an ordinary error, or with a report about `d` at `o`. The report is about the
  structure of the body only if the operand of `i` is not of the kind that its opcode takes
  (`StepError`);
* it lets control pass to the next instruction only if its opcode is no terminator, and sends
  control only to a target of its operand (`Flow.Allowed`).

Methods that the instruction calls and accessors of the host are taken to fail with ordinary errors
alone. Three facts go through the opcode table, one case per opcode: what an action reads is what
the table says the opcode takes, operators fail with ordinary errors, and a terminator does not
let control pass.
-/

namespace Hotswap

open FrameAction

/-! ## What is read from an operand -/

/-- The kind of operand that an effect reads, if it reads one. -/
def Effect.operandKind? : Effect → Option OperandKind
  | .loadArg none | .storeArg | .loadLocal none | .storeLocal none => some .slot
  | .pushInt32 | .pushInt64 => some .int
  | .pushFloat32 | .pushFloat64 => some .float
  | .pushString => some .string
  | .call | .newObject | .loadFunction _ => some .method
  | .cast | .isInstance | .newArray => some .type
  | .loadField | .storeField | .loadStatic | .storeStatic => some .field
  | .loadToken => some .token
  | _ => none

/-- The kind of operand that a transfer of control reads, if it reads one. -/
def Transfer.operandKind? : Transfer → Option OperandKind
  | .ret => none
  | .jump | .branchIf _ | .branchOn _ => some .target
  | .multiway => some .targets

/-- The kind of operand that an action reads, if it reads one. -/
def Action.operandKind? : Action → Option OperandKind
  | .effect e => e.operandKind?
  | .transfer t => t.operandKind?

/-- What the machine reads is what the opcode table says the opcode takes. -/
theorem Opcode.operandKind_of_action {op : Opcode} {kind : OperandKind}
    (h : op.action.operandKind? = some kind) : op.operandKind = kind := by
  cases op <;> first
    | exact (Option.some.inj h)
    | exact absurd h nofun

/-- What an action does with values that it is given fails with ordinary errors alone. -/
def Action.Ordinary : Action → Prop
  | .effect (.compare test) => ∀ a b, Hotswap.Ordinary (test a b)
  | .effect (.binary operation) => ∀ a b, Hotswap.Ordinary (operation a b)
  | .effect (.unary operation) => ∀ v, Hotswap.Ordinary (operation v)
  | .transfer (.branchIf test) => ∀ v, Hotswap.Ordinary (test v)
  | .transfer (.branchOn test) => ∀ a b, Hotswap.Ordinary (test a b)
  | _ => True

/-- **Every operator of the opcode table fails ordinarily.** -/
theorem Action.Standard.ordinary {a : Action} (h : a.Standard) : a.Ordinary := by
  unfold Action.Ordinary
  split
  case h_1 test => exact IsComparison.ordinary h
  case h_2 operation => exact IsBinary.ordinary h
  case h_3 operation => exact IsUnary.ordinary h
  case h_4 test => exact IsBranchTest.ordinary h
  case h_5 test => exact IsComparison.ordinary h
  case h_6 => trivial

/-- An opcode after which control does not pass to the next instruction: it sends control elsewhere
in every case, or it stops. -/
def Action.Terminates : Action → Prop
  | .transfer .ret | .transfer .jump => True
  | .effect .throw | .effect .rethrow | .effect .unsupported => True
  | _ => False

/-- Every terminator of the opcode table is one. -/
theorem Opcode.isTerminator_eq_false {op : Opcode} (h : ¬ op.action.Terminates) :
    op.isTerminator = false := by
  cases op <;> first
    | rfl
    | exact absurd trivial h

/-- Where an instruction may send control: past itself unless its opcode is a terminator, to a
target of its operand, or back to the caller. -/
def Flow.Allowed (i : Instruction) : Flow → Prop
  | .next => i.opcode.isTerminator = false
  | .jump target => target ∈ i.operand.jumpTargets
  | .leave _ => True

/-! ## Errors of one instruction -/

/-- The problem that a malformation is the reaching of. The reasons that say nothing about the
structure of a body have none, and neither has `noInstruction`. -/
def Malformation.problemKind? : Malformation → Option ProblemKind
  | .emptyBody => some .empty
  | .fallsOffEnd => some .fallsOffEnd
  | .danglingNext offset => some (.danglingNext offset)
  | .danglingTarget offset => some (.danglingTarget offset)
  | .operandMismatch opcode found => some (.operandMismatch opcode.operandKind found)
  | _ => none

/-- Whether a malformation says something about the structure of a body. -/
def Malformation.isStructural (reason : Malformation) : Bool :=
  reason = .noInstruction || reason.problemKind?.isSome

/-- What an instruction at an offset of a descriptor can stop with: an ordinary error, a report for
a reason that is not one of structure, or the report of an operand that does not suit the opcode. -/
inductive StepError (d : Descriptor) (o : UInt32) (i : Instruction) : Error → Prop
  | ordinary {e : Error} (h : e.Ordinary) : StepError d o i e
  | unstructural {reason : Malformation} (h : reason.isStructural = false) :
      StepError d o i (.malformedDescriptor d.name.render o reason)
  | operand (h : i.opcode.operandKind ≠ i.operand.kind) :
      StepError d o i
        (.malformedDescriptor d.name.render o (.operandMismatch i.opcode i.operand.kind))

/-- A computation of an instruction, with results as `Q` says. -/
abbrev InStep {α : Type} (d : Descriptor) (o : UInt32) (i : Instruction) (Q : α → Prop)
    (x : FrameAction α) : Prop :=
  Stays d o (StepError d o i) Q x

namespace InStep

variable {α : Type} {d : Descriptor} {o : UInt32} {i : Instruction} {Q : α → Prop}

/-- A computation of the machine that fails ordinarily may be part of a step. -/
theorem ofMachine {m : Machine α} (h : m.Ordinary) :
    InStep d o i (fun _ => True) (ofMachine m) :=
  Stays.ofMachine (h.conseq (fun _ he => .ordinary he) fun _ ha => ha)

/-- So may a result that is there already. -/
theorem ofExcept {r : Except Error α} (h : Ordinary r) :
    InStep d o i (fun _ => True) (ofExcept r) :=
  ofMachine (Machine.Meets.ofExcept h)

/-- So may an ordinary error. -/
theorem fail {e : Error} (h : e.Ordinary) : InStep d o i Q (fail e) := Stays.fail (.ordinary h)

/-- A report for a reason that is not one of structure. -/
theorem malformed {reason : Malformation} (h : reason.isStructural = false) :
    InStep d o i Q (malformed reason) :=
  Stays.malformed (.unstructural h)

/-- A report of an operand that does not suit the opcode. -/
theorem badOperand (h : i.opcode.operandKind ≠ i.operand.kind) : InStep d o i Q (badOperand i) :=
  Stays.malformed (.operand h)

/-! ### The stack and the slots -/

/-- A value is pushed, if the stack has room for it. -/
theorem push (v : Value) : InStep d o i (fun _ => True) (push v) :=
  Stays.modify (fun _ => rfl) fun _ => rfl

/-- An empty stack is a fault of the step. -/
theorem underflow : InStep d o i Q underflow := Stays.get.bind fun _ _ => fail rfl

/-- An operand is popped, if there is one. -/
theorem pop : InStep d o i (fun _ => True) pop := by
  unfold FrameAction.pop
  refine Stays.get.bind fun f _ => ?_
  split
  · exact underflow
  · exact Stays.bind (Stays.modify (fun _ => rfl) fun _ => rfl) fun _ _ => .pure trivial

/-- So are several. -/
theorem popMany (count : Nat) : InStep d o i (fun _ => True) (popMany count) := by
  unfold FrameAction.popMany
  refine Stays.get.bind fun f _ => ?_
  dsimp only
  split
  · exact underflow
  · exact Stays.bind (Stays.modify (fun _ => rfl) fun _ => rfl) fun _ _ => .pure trivial

/-- So are two. -/
theorem popPair : InStep d o i (fun _ => True) popPair :=
  pop.bind fun _ _ => pop.bind fun _ _ => .pure trivial

/-- An argument is read, if there is one. -/
theorem loadArg (slot : Nat) : InStep d o i (fun _ => True) (loadArg slot) := by
  unfold FrameAction.loadArg
  refine Stays.get.bind fun f _ => ?_
  split
  · exact .pure trivial
  · exact malformed rfl

/-- It is stored, if there is one. -/
theorem storeArg (slot : Nat) (v : Value) : InStep d o i (fun _ => True) (storeArg slot v) := by
  unfold FrameAction.storeArg
  refine Stays.get.bind fun f _ => ?_
  split
  · exact Stays.modify (fun _ => rfl) fun _ => rfl
  · exact malformed rfl

/-- A local is read, if there is one. -/
theorem loadLocal (slot : Nat) : InStep d o i (fun _ => True) (loadLocal slot) := by
  unfold FrameAction.loadLocal
  refine Stays.get.bind fun f _ => ?_
  split
  · exact .pure trivial
  · exact malformed rfl

/-- It is stored, if there is one. -/
theorem storeLocal (slot : Nat) (v : Value) :
    InStep d o i (fun _ => True) (storeLocal slot v) := by
  unfold FrameAction.storeLocal
  refine Stays.get.bind fun f _ => ?_
  split
  · exact Stays.modify (fun _ => rfl) fun _ => rfl
  · exact malformed rfl

/-! ### The operand

Each reader is in order if the opcode takes the kind of operand that it reads: it reports an operand
only if that is of another kind. -/

/-- A slot is read from an operand of that kind. -/
theorem slotOperand (h : i.opcode.operandKind = .slot) :
    InStep d o i (fun _ => True) (slotOperand i) := by
  unfold FrameAction.slotOperand
  split
  · exact .pure trivial
  · split
    · exact malformed rfl
    · exact .pure trivial
  · refine badOperand fun hkind => ?_
    cases hop : i.operand <;> simp_all [Operand.kind]

/-- So it is where the opcode has none. -/
theorem slotOf (slot : Option Nat) (h : slot = none → i.opcode.operandKind = .slot) :
    InStep d o i (fun _ => True) (slotOf slot i) := by
  unfold FrameAction.slotOf
  split
  · exact .pure trivial
  · exact slotOperand (h rfl)

/-- An integer is read from an operand of that kind. -/
theorem intOperand (h : i.opcode.operandKind = .int) :
    InStep d o i (fun _ => True) (intOperand i) := by
  unfold FrameAction.intOperand
  split
  · exact .pure trivial
  · refine badOperand fun hkind => ?_
    cases hop : i.operand <;> simp_all [Operand.kind]

/-- So is a floating-point number. -/
theorem floatOperand (h : i.opcode.operandKind = .float) :
    InStep d o i (fun _ => True) (floatOperand i) := by
  unfold FrameAction.floatOperand
  split
  · exact .pure trivial
  · exact .pure trivial
  · refine badOperand fun hkind => ?_
    cases hop : i.operand <;> simp_all [Operand.kind]

/-- So is a string. -/
theorem stringOperand (h : i.opcode.operandKind = .string) :
    InStep d o i (fun _ => True) (stringOperand i) := by
  unfold FrameAction.stringOperand
  split
  · exact .pure trivial
  · refine badOperand fun hkind => ?_
    cases hop : i.operand <;> simp_all [Operand.kind]

/-- A target that is read is one of the targets of the operand. -/
theorem targetOperand (h : i.opcode.operandKind = .target) :
    InStep d o i (fun target => target ∈ i.operand.jumpTargets) (targetOperand i) := by
  unfold FrameAction.targetOperand
  split
  · rename_i offset hop
    refine .pure ?_
    rw [hop]
    exact List.mem_singleton_self offset
  · refine badOperand fun hkind => ?_
    cases hop : i.operand <;> simp_all [Operand.kind]

/-- The targets that are read are those of the operand. -/
theorem targetsOperand (h : i.opcode.operandKind = .targets) :
    InStep d o i (fun targets => targets = i.operand.jumpTargets) (targetsOperand i) := by
  unfold FrameAction.targetsOperand
  split
  · rename_i offsets hop
    refine .pure ?_
    rw [hop]
    rfl
  · refine badOperand fun hkind => ?_
    cases hop : i.operand <;> simp_all [Operand.kind]

/-- So is a method reference. -/
theorem methodOperand (h : i.opcode.operandKind = .method) :
    InStep d o i (fun _ => True) (methodOperand i) := by
  unfold FrameAction.methodOperand
  split
  · exact ofExcept (ordinary_format _)
  · refine badOperand fun hkind => ?_
    cases hop : i.operand <;> simp_all [Operand.kind]

/-- A type is closed with ordinary errors. -/
theorem closedType (text : String) : InStep d o i (fun _ => True) (closedType text) := by
  unfold FrameAction.closedType
  exact (ofExcept (ordinary_format _)).bind fun _ _ =>
    Stays.get.bind fun _ _ => ofExcept (ordinary_close ..)

/-- A type is read from an operand of that kind. -/
theorem typeOperand (h : i.opcode.operandKind = .type) :
    InStep d o i (fun _ => True) (typeOperand i) := by
  unfold FrameAction.typeOperand
  split
  · exact closedType _
  · refine badOperand fun hkind => ?_
    cases hop : i.operand <;> simp_all [Operand.kind]

/-- So is the type that a token stands for. -/
theorem tokenOperand (h : i.opcode.operandKind = .token) :
    InStep d o i (fun _ => True) (tokenOperand i) := by
  unfold FrameAction.tokenOperand
  split
  · exact closedType _
  · refine badOperand fun hkind => ?_
    cases hop : i.operand <;> simp_all [Operand.kind]

/-- A field that is read has an accessor of the symbol table, if it has one. -/
theorem fieldOperand {scope : Scope} (hs : scope.symbols.OrdinaryAccessors)
    (h : i.opcode.operandKind = .field) :
    InStep d o i (fun f => ∀ a, f.accessor = some a → a.Ordinary) (fieldOperand scope i) := by
  unfold FrameAction.fieldOperand
  split
  · refine (ofExcept (ordinary_format _)).bind fun ref _ => Stays.get.bind fun f _ => ?_
    refine Stays.ofMachine ((Machine.Meets.resolve (gives_resolveField _ _ _)).conseq
      (fun _ he => .ordinary he) fun handle hhandle a ha => ?_)
    obtain ⟨key, hkey⟩ := hhandle a ha
    exact hs key a hkey
  · refine badOperand fun hkind => ?_
    cases hop : i.operand <;> simp_all [Operand.kind]

end InStep

/-! ## Computations of the machine in an instruction -/

section parts

variable {scope : Scope} {callee : Callee}

/-- A delegate is called with ordinary errors, if the callee has no others. -/
theorem ordinary_callDelegate (hc : callee.Ordinary) (address : Nat) (args : List Value) :
    (Step.callDelegate callee address args).Ordinary := by
  unfold Step.callDelegate
  refine Machine.Meets.get.bind fun s _ => ?_
  split
  · exact hc.delegate _ _
  · exact .fail rfl

/-- So is an object constructed. -/
theorem ordinary_construct (hc : callee.Ordinary) (type : TypeName) (b : BoundMethod)
    (args : List Value) : (Step.construct scope callee type b args).Ordinary := by
  unfold Step.construct
  refine (ordinary_method? scope b).bind fun found _ => ?_
  split
  · split
    · refine (ordinary_newObject type).bind fun v _ => ?_
      exact Machine.Meets.bind (hc.method _ _ _).discard fun _ _ => .pure trivial
    · exact hc.method _ _ _
  · split
    · exact ordinary_newObject type
    · exact .fail rfl

/-- The default of a field is made with ordinary errors. -/
theorem ordinary_fieldDefault (f : FieldHandle) : (Step.fieldDefault scope f).Ordinary := by
  unfold Step.fieldDefault
  split
  · exact ordinary_defaultValue _ _
  · exact .pure trivial

/-- An ordinary field of the host is written with ordinary errors. -/
theorem Accessor.Ordinary.set_ordinary {a : Accessor} (ha : a.Ordinary) (key : String)
    (target v : Value) : MemoryAction.Ordinary (a.set key target v) := by
  unfold Accessor.set
  split
  · rename_i write hwrite
    exact ha.set write hwrite target v
  · exact fun _ => rfl

/-- A field is read with ordinary errors. -/
theorem ordinary_loadField {f : FieldHandle} (h : ∀ a, f.accessor = some a → a.Ordinary)
    (target : Value) : (Step.loadField scope f target).Ordinary := by
  unfold Step.loadField
  split
  · rename_i a ha
    exact .onMemory? ((h a ha).get _)
  · refine Machine.Meets.get.bind fun s _ => ?_
    split
    · exact .pure trivial
    · exact ordinary_fieldDefault f
  · exact .fail rfl
  · exact .fail rfl

/-- It is written with ordinary errors. -/
theorem ordinary_storeField {f : FieldHandle} (h : ∀ a, f.accessor = some a → a.Ordinary)
    (target v : Value) : (Step.storeField f target v).Ordinary := by
  unfold Step.storeField
  split
  · rename_i a ha
    exact .onMemory? ((h a ha).set_ordinary _ _ _)
  · exact .modify _
  · exact .fail rfl
  · exact .fail rfl

/-- A static field is read with ordinary errors. -/
theorem ordinary_loadStatic {f : FieldHandle} (h : ∀ a, f.accessor = some a → a.Ordinary) :
    (Step.loadStatic scope f).Ordinary := by
  unfold Step.loadStatic
  split
  · rename_i a ha
    exact .onMemory? ((h a ha).get .null)
  · refine Machine.Meets.get.bind fun s _ => ?_
    split
    · exact .pure trivial
    · exact ordinary_fieldDefault f

/-- It is written with ordinary errors. -/
theorem ordinary_storeStatic {f : FieldHandle} (h : ∀ a, f.accessor = some a → a.Ordinary)
    (v : Value) : (Step.storeStatic f v).Ordinary := by
  unfold Step.storeStatic
  split
  · rename_i a ha
    exact .onMemory? ((h a ha).set_ordinary _ _ _)
  · exact .modify _

/-- The items of a new array are made with ordinary errors. -/
theorem ordinary_freshItems (fill : Value) (count : Nat) :
    (Step.freshItems fill count).Ordinary := by
  induction count with
  | zero => exact .pure trivial
  | succ count ih =>
    unfold Step.freshItems
    refine ih.bind fun items _ => ?_
    split
    · exact (ordinary_newObject _).bind fun _ _ => .pure trivial
    · exact .pure trivial

/-- So is the array. -/
theorem ordinary_makeArray (element : TypeName) (length : Int64) :
    (Step.makeArray scope element length).Ordinary := by
  unfold Step.makeArray
  split
  · exact .fail rfl
  · exact (ordinary_defaultValue _ _).bind fun _ _ => (ordinary_freshItems _ _).bind
      fun _ _ => .onMemory fun _ => trivial

/-- An integer that is wanted is missed with an ordinary error. -/
theorem ordinary_integerFor (operator : String) (v : Value) :
    Ordinary (Step.integerFor operator v) := by
  unfold Step.integerFor
  split
  · trivial
  · rfl

/-- An item of an array is read with ordinary errors. -/
theorem ordinary_item (h : Heap) (r : ArrayRef) (index : Int64) : Ordinary (h.item r index) := by
  unfold Heap.item
  split
  · trivial
  · rfl

/-- It is set with ordinary errors. -/
theorem ordinary_setItem (h : Heap) (r : ArrayRef) (index : Int64) (v : Value) :
    Ordinary (h.setItem r index v) := by
  unfold Heap.setItem
  split
  · trivial
  · rfl

end parts

/-! ## Instructions -/

namespace InStep

variable {d : Descriptor} {o : UInt32} {i : Instruction} {scope : Scope} {callee : Callee}

/-- The `Invoke` of a delegate may be part of a step. -/
theorem invokeDelegate (hc : callee.Ordinary) (ref : MethodRef) :
    InStep d o i (fun _ => True) (Step.invokeDelegate callee ref) := by
  unfold Step.invokeDelegate
  refine (popMany _).bind fun args _ => pop.bind fun target _ => ?_
  split
  · refine (ofMachine (ordinary_callDelegate hc _ _)).bind fun result _ => ?_
    split
    · exact .pure trivial
    · exact push result
  · exact fail rfl
  · exact fail rfl

/-- So may be the question whether a reference is to one. -/
theorem isDelegateInvoke (ref : MethodRef) :
    InStep d o i (fun _ => True) (Step.isDelegateInvoke scope ref) := by
  unfold Step.isDelegateInvoke
  split
  · refine Stays.get.bind fun f _ => (ofExcept (ordinary_close ..)).bind fun t _ => ?_
    refine (ofMachine (.attempt _)).bind fun r _ => ?_
    split
    · exact .pure trivial
    · exact .pure trivial
  · exact .pure trivial

/-- So may be the binding of a reference. -/
theorem bound (ref : MethodRef) : InStep d o i (fun _ => True) (Step.bound ref) :=
  Stays.get.bind fun _ _ => ofExcept (ordinary_ofRef ..)

/-- So may be the popping of a receiver. -/
theorem popReceiver (m : Method) : InStep d o i (fun _ => True) (Step.popReceiver m) := by
  unfold Step.popReceiver
  split
  · exact .pure trivial
  · exact pop.map fun _ _ => trivial

/-- A call may be a step of an opcode that takes a method. -/
theorem call (hc : callee.Ordinary) (h : i.opcode.operandKind = .method) :
    InStep d o i (fun _ => True) (Step.call scope callee i) := by
  unfold Step.call
  refine (methodOperand h).bind fun ref _ => (isDelegateInvoke ref).bind fun b _ => ?_
  split
  · exact invokeDelegate hc ref
  · refine (bound ref).bind fun b _ => (ofMachine (ordinary_method _ _)).bind fun m _ => ?_
    refine (popMany _).bind fun args _ => (popReceiver m).bind fun receiver _ => ?_
    refine (ofMachine (hc.method _ _ _)).bind fun result _ => ?_
    split
    · exact .pure trivial
    · exact push result

/-- Making a delegate of a function may be part of a step. -/
theorem newDelegate : InStep d o i (fun _ => True) Step.newDelegate := by
  unfold Step.newDelegate
  refine pop.bind fun v _ => ?_
  split
  · refine Stays.get.bind fun f _ => ?_
    split
    · refine Stays.bind (Stays.modify (fun _ => rfl) fun _ => rfl) fun _ _ => ?_
      exact pop.discard.bind fun _ _ => push _
    · exact push _
  · exact malformed rfl

/-- Making an object may be a step of an opcode that takes a method. -/
theorem newObject (hc : callee.Ordinary) (h : i.opcode.operandKind = .method) :
    InStep d o i (fun _ => True) (Step.newObject scope callee i) := by
  unfold Step.newObject
  refine (methodOperand h).bind fun ref _ => Stays.get.bind fun f _ => ?_
  refine (ofExcept (ordinary_close ..)).bind fun t _ => ?_
  refine (ofMachine (.resolve (ordinary_resolveType _ _))).bind fun handle _ => ?_
  split
  · exact newDelegate
  · refine (bound ref).bind fun b _ => (popMany _).bind fun args _ => ?_
    exact (ofMachine (ordinary_construct hc _ _ _)).bind fun v _ => push v

/-- So may be the loading of a function. -/
theorem loadFunction (virtual : Bool) (h : i.opcode.operandKind = .method) :
    InStep d o i (fun _ => True) (Step.loadFunction scope virtual i) := by
  unfold Step.loadFunction
  refine (methodOperand h).bind fun ref _ => (bound ref).bind fun b _ => ?_
  refine (ofMachine (ordinary_method _ _)).bind fun m _ => (popReceiver m).bind fun r _ => ?_
  refine Stays.bind (Stays.modify (fun _ => rfl) fun _ => rfl) fun _ _ => ?_
  exact (ofMachine (.onMemory fun _ => trivial)).bind fun _ _ => push _

/-- Popping an index may be part of a step. -/
theorem popIndex : InStep d o i (fun _ => True) Step.popIndex :=
  pop.bind fun _ _ => ofExcept (ordinary_integerFor ..)

/-- So may be the popping of an array. -/
theorem popArray (operation : String) :
    InStep d o i (fun _ => True) (Step.popArray operation) := by
  unfold Step.popArray
  refine pop.bind fun v _ => ?_
  split
  · exact .pure trivial
  · exact fail rfl
  · exact fail rfl

/-- So may be the reading of the heap. -/
theorem heap : InStep d o i (fun _ => True) Step.heap :=
  ofMachine (Machine.Meets.get.bind fun _ _ => .pure trivial)

/-- Making an array may be a step of an opcode that takes a type. -/
theorem newArray (h : i.opcode.operandKind = .type) :
    InStep d o i (fun _ => True) (Step.newArray scope i) := by
  unfold Step.newArray
  refine pop.bind fun length _ => (typeOperand h).bind fun element _ => ?_
  refine (ofExcept (ordinary_integerFor ..)).bind fun length _ => ?_
  exact (ofMachine (ordinary_makeArray _ _)).bind fun v _ => push v

/-- Storing an item may be a step. -/
theorem storeItem : InStep d o i (fun _ => True) Step.storeItem := by
  unfold Step.storeItem
  refine pop.bind fun v _ => popIndex.bind fun index _ => (popArray _).bind fun r _ => ?_
  refine heap.bind fun h _ => (ofExcept (ordinary_setItem ..)).bind fun h' _ => ?_
  exact ofMachine (.modify _)

/-- Popping a value may be part of a step of an opcode that takes a type. -/
theorem popWithType (h : i.opcode.operandKind = .type) :
    InStep d o i (fun _ => True) (Step.popWithType scope i) := by
  unfold Step.popWithType
  refine pop.bind fun v _ => (typeOperand h).bind fun t _ => ?_
  exact (ofMachine (.resolve (ordinary_resolveType _ _))).bind fun _ _ => .pure trivial

/-- An effect that is no terminator is over with the frame where it was; a terminator is never
over. -/
theorem perform (hs : scope.symbols.OrdinaryAccessors) (hc : callee.Ordinary) (e : Effect)
    (hkind : ∀ kind, e.operandKind? = some kind → i.opcode.operandKind = kind)
    (hord : (Action.effect e).Ordinary) :
    InStep d o i (fun _ => ¬ (Action.effect e).Terminates) (perform scope callee i e) := by
  -- The terminators come apart first: what they are made of is never over.
  by_cases hterm : (Action.effect e).Terminates
  · cases e with
    | throw => exact pop.bind fun v _ => heap.bind fun h _ => fail rfl
    | rethrow => exact fail rfl
    | unsupported => exact Stays.get.bind fun f _ => fail rfl
    | _ => exact hterm.elim
  · refine Stays.conseq ?_ (fun _ he => he) fun _ (_ : True) => hterm
    unfold Hotswap.perform
    cases e with
    | throw | rethrow | unsupported => exact (hterm trivial).elim
    | skip => exact .pure trivial
    | loadArg slot =>
      have hslot : slot = none → i.opcode.operandKind = .slot := by
        rintro rfl
        exact hkind _ rfl
      exact (slotOf slot hslot).bind fun n _ => (loadArg n).bind fun v _ => push v
    | storeArg =>
      exact (slotOperand (hkind _ rfl)).bind fun n _ => pop.bind fun v _ => storeArg n v
    | loadLocal slot =>
      have hslot : slot = none → i.opcode.operandKind = .slot := by
        rintro rfl
        exact hkind _ rfl
      exact (slotOf slot hslot).bind fun n _ => (loadLocal n).bind fun v _ => push v
    | storeLocal slot =>
      have hslot : slot = none → i.opcode.operandKind = .slot := by
        rintro rfl
        exact hkind _ rfl
      exact (slotOf slot hslot).bind fun n _ => pop.bind fun v _ => storeLocal n v
    | push v => exact push v
    | pushInt32 =>
      refine (intOperand (hkind _ rfl)).bind fun n _ => ?_
      split
      · exact push _
      · exact malformed rfl
    | pushInt64 => exact (intOperand (hkind _ rfl)).bind fun n _ => push _
    | pushFloat32 => exact (floatOperand (hkind _ rfl)).bind fun x _ => push _
    | pushFloat64 => exact (floatOperand (hkind _ rfl)).bind fun x _ => push _
    | pushString => exact (stringOperand (hkind _ rfl)).bind fun s _ => push _
    | dup => exact pop.bind fun v _ => (push v).bind fun _ _ => push v
    | pop => exact pop.discard
    | call => exact call hc (hkind _ rfl)
    | newObject => exact newObject hc (hkind _ rfl)
    | loadFunction virtual => exact loadFunction virtual (hkind _ rfl)
    | compare test =>
      exact popPair.bind fun p _ => (ofExcept (hord p.1 p.2)).bind fun b _ => push _
    | binary operation =>
      exact popPair.bind fun p _ => (ofExcept (hord p.1 p.2)).bind fun v _ => push v
    | unary operation => exact pop.bind fun v _ => (ofExcept (hord v)).bind fun v _ => push v
    | cast =>
      exact (popWithType (hkind _ rfl)).bind fun p _ =>
        (ofExcept (ordinary_cast ..)).bind fun v _ => push v
    | isInstance => exact (popWithType (hkind _ rfl)).bind fun p _ => push _
    | loadField =>
      exact (fieldOperand hs (hkind _ rfl)).bind fun f hf => pop.bind fun v _ =>
        (ofMachine (ordinary_loadField hf v)).bind fun v _ => push v
    | storeField =>
      exact (fieldOperand hs (hkind _ rfl)).bind fun f hf => popPair.bind fun p _ =>
        ofMachine (ordinary_storeField hf p.1 p.2)
    | loadStatic =>
      exact (fieldOperand hs (hkind _ rfl)).bind fun f hf =>
        (ofMachine (ordinary_loadStatic hf)).bind fun v _ => push v
    | storeStatic =>
      exact (fieldOperand hs (hkind _ rfl)).bind fun f hf => pop.bind fun v _ =>
        ofMachine (ordinary_storeStatic hf v)
    | newArray => exact newArray (hkind _ rfl)
    | arrayLength => exact (popArray _).bind fun r _ => heap.bind fun h _ => push _
    | loadItem =>
      exact popIndex.bind fun index _ => (popArray _).bind fun r _ => heap.bind fun h _ =>
        (ofExcept (ordinary_item ..)).bind fun v _ => push v
    | storeItem => exact storeItem
    | loadToken =>
      refine (tokenOperand (hkind _ rfl)).bind fun t _ => ?_
      have hresolve : InStep d o i (fun _ => True)
          (FrameAction.ofMachine (Machine.resolve (scope.symbols.resolveType t))) :=
        ofMachine (.resolve (ordinary_resolveType _ _))
      exact hresolve.discard.bind fun _ _ => push _

/-- A branch goes to the target of the operand if it is taken, and otherwise past itself. -/
theorem branch (h : i.opcode.operandKind = .target) {taken : Bool}
    (hnext : taken = false → i.opcode.isTerminator = false) :
    InStep d o i (Flow.Allowed i) (Step.branch i taken) := by
  unfold Step.branch
  split
  · exact (targetOperand h).map fun _ ht => ht
  · rename_i hnot
    exact .pure (hnext (by simpa using hnot))

/-- A multi-way branch goes where its operand says, or on. -/
theorem multiway (h : i.opcode.operandKind = .targets) (hnext : i.opcode.isTerminator = false) :
    InStep d o i (Flow.Allowed i) (Step.multiway i) := by
  unfold Step.multiway
  refine pop.bind fun v _ => (targetsOperand h).bind fun targets ht => ?_
  refine (ofExcept (ordinary_integerFor ..)).bind fun position _ => ?_
  split
  · rename_i target hfind
    refine .pure ?_
    show target ∈ i.operand.jumpTargets
    split at hfind
    · cases hfind
    · exact ht ▸ List.mem_of_getElem? hfind
  · exact .pure hnext

/-- **A transfer of control goes where it is allowed to.** -/
theorem transfer (t : Transfer)
    (hkind : ∀ kind, t.operandKind? = some kind → i.opcode.operandKind = kind)
    (hord : (Action.transfer t).Ordinary)
    (hnext : ¬ (Action.transfer t).Terminates → i.opcode.isTerminator = false) :
    InStep d o i (Flow.Allowed i) (transfer i t) := by
  unfold Hotswap.transfer
  cases t with
  | ret =>
    refine Stays.get.bind fun f _ => ?_
    split
    · exact .pure trivial
    · exact pop.map fun _ _ => trivial
  | jump => exact branch (hkind _ rfl) nofun
  | branchIf test =>
    exact pop.bind fun v _ => (ofExcept (hord v)).bind fun b _ =>
      branch (hkind _ rfl) fun _ => hnext id
  | branchOn test =>
    exact popPair.bind fun p _ => (ofExcept (hord p.1 p.2)).bind fun b _ =>
      branch (hkind _ rfl) fun _ => hnext id
  | multiway => exact multiway (hkind _ rfl) (hnext id)

end InStep

/-- **The contract of one instruction.** If methods and accessors of the host fail with ordinary
errors alone, an instruction fails as `StepError` says and sends control where it may. -/
theorem inStep_step {scope : Scope} {callee : Callee} (hs : scope.symbols.OrdinaryAccessors)
    (hc : callee.Ordinary) (d : Descriptor) (o : UInt32) (i : Instruction) :
    InStep d o i (Flow.Allowed i) (step scope callee i) := by
  have hkind : ∀ kind, i.opcode.action.operandKind? = some kind → i.opcode.operandKind = kind :=
    fun _ => Opcode.operandKind_of_action
  have hord := i.opcode.standard_action.ordinary
  have hnext : ¬ i.opcode.action.Terminates → i.opcode.isTerminator = false :=
    Opcode.isTerminator_eq_false
  unfold step
  split
  · rename_i e he
    rw [he] at hkind hord hnext
    exact (InStep.perform hs hc e hkind hord).bind fun _ hnot => .pure (hnext hnot)
  · rename_i t ht
    rw [ht] at hkind hord hnext
    exact InStep.transfer t hkind hord hnext

end Hotswap
