import Hotswap.Proofs.Machine.Calls
import Hotswap.Proofs.Machine.Fields
import Hotswap.Proofs.Machine.Shift

/-!
# Hosts that do not see addresses

Where a delegate is in memory is nothing that a program of the host can see: it is handed a
reference and hands it on. So with one delegate more in memory it makes the corresponding requests
(`Host.Shifts`), and a host all of whose code is like that is *uniform* (`SymbolTable.Uniform`).

For the instructions of the machine the same is proved, and it begins here: operators do not look at
references but to compare them, closing a name that can be read gives one that can be read, and each
operation of a frame has its rule (`FrameAction.Shifts`).
-/

namespace Hotswap

open FrameAction

variable {k : Nat}

/-! ## Operators -/

/-- A plain value is no reference to a delegate, so it stays as it is. -/
theorem Value.IsPlain.shift_eq {v : Value} (h : v.IsPlain) (k : Nat) : v.shift k = v := by
  cases v <;> trivial

/-- Answers that are the same and refer to nothing correspond. -/
theorem AnswerPlain.shifts {r r' : Except Error Value} (h : AnswerPlain r) (heq : r' = r) :
    ShiftsAnswer k r r' := by
  subst heq
  refine ⟨?_, h.over⟩
  cases r' with
  | ok v => exact congrArg Except.ok ((h v rfl).shift_eq k).symm
  | error e => rfl

section operators

variable (k : Nat) (a b v : Value)

/-- Arithmetic does not see addresses. -/
theorem arith_shift (op : BinaryOp) : arith op (a.shift k) (b.shift k) = arith op a b := by
  unfold arith
  simp only [Value.numPair_shift, Value.mismatch_shift]

/-- Addition does not, with strings included. -/
theorem add_shift : add (a.shift k) (b.shift k) = add a b := by
  cases a <;> cases b <;> rfl

/-- Bitwise operators do not. -/
theorem bitwise_shift (op : BinaryOp) : bitwise op (a.shift k) (b.shift k) = bitwise op a b := by
  cases a <;> cases b <;> rfl

/-- Checked arithmetic does not. -/
theorem checked_shift (op : BinaryOp) (unsigned : Bool) :
    checked op unsigned (a.shift k) (b.shift k) = checked op unsigned a b := by
  unfold checked
  simp only [Value.numPair_shift, Value.mismatch_shift, arith_shift]

/-- Unsigned division does not. -/
theorem divideUnsigned_shift (op : BinaryOp) :
    divideUnsigned op (a.shift k) (b.shift k) = divideUnsigned op a b := by
  unfold divideUnsigned
  simp only [Value.numPair_shift, Value.mismatch_shift, arith_shift]

/-- Negation does not. -/
theorem negate_shift : negate (v.shift k) = negate v := by cases v <;> rfl

/-- The complement does not. -/
theorem complement_shift : complement (v.shift k) = complement v := by cases v <;> rfl

/-- Conversions do not. -/
theorem convert_shift (c : Conversion) : convert c (v.shift k) = convert c v := by
  cases v <;> rfl

/-- Checked conversions do not. -/
theorem convertChecked_shift (c : Conversion) (unsigned : Bool) :
    convertChecked c unsigned (v.shift k) = convertChecked c unsigned v := by
  cases v <;> rfl

/-- Comparison does not. -/
theorem compareValues_shift (operator : String) :
    compareValues operator (a.shift k) (b.shift k) = compareValues operator a b := by
  unfold compareValues
  simp only [Value.toInt64?_shift, Value.toFloat?_shift, Value.mismatch_shift]

/-- Nor does any relation that is made of it. -/
theorem related_shift (r : Relation) (unordered : Bool) :
    related r unordered (a.shift k) (b.shift k) = related r unordered a b :=
  congrArg _ (compareValues_shift k a b _)

/-- Equality of values does not. -/
theorem equal_shift : equal (a.shift k) (b.shift k) = equal a b := by
  cases a <;> cases b <;> rfl

/-- The test for null does not. -/
theorem nullTest?_shift : nullTest? (a.shift k) (b.shift k) = nullTest? a b := by
  unfold nullTest?
  simp only [Value.isNull_shift, Value.isReference_shift, Value.isSame_shift]

/-- Two references are the same if they still are when both are renamed. -/
theorem same_shift : same (a.shift k) (b.shift k) = same a b := by
  unfold same
  rw [nullTest?_shift, Value.isSame_shift, equal_shift]
  cases nullTest? a b with
  | some equal => rfl
  | none => cases a <;> cases b <;> rfl

/-- They differ if they still do. -/
theorem different_shift : different (a.shift k) (b.shift k) = different a b :=
  congrArg _ (same_shift k a b)

/-- The unordered comparison does not see addresses. -/
theorem greaterOrUnordered_shift :
    greaterOrUnordered (a.shift k) (b.shift k) = greaterOrUnordered a b := by
  unfold greaterOrUnordered
  rw [nullTest?_shift, related_shift]

/-- Whether a value counts as false is not seen in its address. -/
theorem branchFalse_shift : branchFalse (v.shift k) = branchFalse v := by cases v <;> rfl

/-- Nor whether it counts as true. -/
theorem branchTrue_shift : branchTrue (v.shift k) = branchTrue v := by cases v <;> rfl

/-- Whether a value is an instance of a type is not seen in its address. -/
theorem isInstance_shift (symbols : SymbolTable) (target : TypeHandle) :
    symbols.isInstance (v.shift k) target = symbols.isInstance v target := by
  cases v <;> rfl

/-- An integer that is wanted is the same one. -/
theorem integerFor_shift (operator : String) :
    Step.integerFor operator (v.shift k) = Step.integerFor operator v := by
  unfold Step.integerFor
  rw [Value.integer?_shift, Value.typeName_shift]

end operators

/-- An exception has the same description in corresponding heaps. -/
theorem Heap.Shifts.describeException {h h' : Heap} (hh : h.Shifts k h') (v : Value) :
    Step.describeException h' (v.shift k) = Step.describeException h v := by
  cases v with
  | object r =>
    show Step.describeException h' (.object r) = _
    unfold Step.describeException
    simp only [hh.field?, ← Option.map_or]
    cases (h.field? r "message").or (h.field? r "_message") with
    | none => rfl
    | some message =>
      dsimp only [Option.map_some]
      rw [Value.render_shift]
  | _ => rfl

/-- The test for finite numbers gives the value back, renamed. -/
theorem shifts_checkFinite {v : Value} (hv : v.Over TypeName.WellFormed) :
    ShiftsAnswer k (checkFinite v) (checkFinite (v.shift k)) := by
  refine ⟨?_, (answerFrom_checkFinite v).over hv⟩
  unfold checkFinite
  rw [Value.toFloat?_shift]
  split
  · split <;> rfl
  · rfl

/-- A cast gives the value back, renamed. -/
theorem shifts_cast (symbols : SymbolTable) {v : Value} (hv : v.Over TypeName.WellFormed)
    (target : TypeHandle) :
    ShiftsAnswer k (symbols.cast v target) (symbols.cast (v.shift k) target) := by
  refine ⟨?_, (answerFrom_cast symbols v target).over hv⟩
  unfold SymbolTable.cast SymbolTable.truth
  simp only [Value.isNull_shift, isInstance_shift, Value.typeName_shift, Value.toFloat?_shift,
    Value.isFalsy_shift, convert_shift]
  repeat' split
  all_goals first
    | rfl
    | exact ((answerPlain_convert _ _).shifts (k := k) rfl).1

/-- What an action makes of operands that correspond corresponds. -/
def Action.Shifts (k : Nat) : Action → Prop
  | .effect (.push v) => v.Shifts k v
  | .effect (.compare test) => ∀ a b : Value, test (a.shift k) (b.shift k) = test a b
  | .effect (.binary operation) =>
    ∀ a b : Value, ShiftsAnswer k (operation a b) (operation (a.shift k) (b.shift k))
  | .effect (.unary operation) => ∀ v : Value, v.Over TypeName.WellFormed →
    ShiftsAnswer k (operation v) (operation (v.shift k))
  | .transfer (.branchIf test) => ∀ v : Value, test (v.shift k) = test v
  | .transfer (.branchOn test) => ∀ a b : Value, test (a.shift k) (b.shift k) = test a b
  | _ => True

/-- A comparison of the opcode table does not see addresses. -/
theorem IsComparison.shift {test : Value → Value → Except Error Bool} (h : IsComparison test)
    (a b : Value) : test (a.shift k) (b.shift k) = test a b := by
  cases h with
  | same => exact same_shift k a b
  | different => exact different_shift k a b
  | related r unordered => exact related_shift k a b r unordered
  | greaterOrUnordered => exact greaterOrUnordered_shift k a b

/-- Neither does a binary operator of the table. -/
theorem IsBinary.shift {operation : Value → Value → Except Error Value} (h : IsBinary operation)
    (a b : Value) : operation (a.shift k) (b.shift k) = operation a b := by
  cases h with
  | add => exact add_shift k a b
  | arith op => exact arith_shift k a b op
  | bitwise op => exact bitwise_shift k a b op
  | checked op unsigned => exact checked_shift k a b op unsigned
  | divideUnsigned op => exact divideUnsigned_shift k a b op

/-- A unary operator of the table has corresponding answers. -/
theorem IsUnary.shifts {operation : Value → Except Error Value} (h : IsUnary operation) {v : Value}
    (hv : v.Over TypeName.WellFormed) : ShiftsAnswer k (operation v) (operation (v.shift k)) := by
  cases h with
  | negate => exact (answerPlain_negate v).shifts (negate_shift k v)
  | complement => exact (answerPlain_complement v).shifts (complement_shift k v)
  | convert c => exact (answerPlain_convert c v).shifts (convert_shift k v c)
  | convertChecked c unsigned =>
    exact (answerPlain_convertChecked c unsigned v).shifts (convertChecked_shift k v c unsigned)
  | checkFinite => exact shifts_checkFinite hv

/-- A test of a branch does not see addresses. -/
theorem IsBranchTest.shift {test : Value → Except Error Bool} (h : IsBranchTest test) (v : Value) :
    test (v.shift k) = test v := by
  cases h with
  | branchFalse => exact branchFalse_shift k v
  | branchTrue => exact branchTrue_shift k v

/-- **No operator of the opcode table sees addresses.** -/
theorem Action.Standard.shifts {a : Action} (h : a.Standard) (k : Nat) : a.Shifts k := by
  unfold Action.Shifts
  split
  case h_1 v => exact ⟨(Value.IsPlain.shift_eq h k).symm, Value.IsPlain.over h⟩
  case h_2 test => exact IsComparison.shift h
  case h_3 operation => exact fun a b => (IsBinary.plain h a b).shifts (IsBinary.shift h a b)
  case h_4 operation => exact fun v hv => IsUnary.shifts h hv
  case h_5 test => exact IsBranchTest.shift h
  case h_6 test => exact IsComparison.shift h
  case h_7 => trivial

/-! ## The host -/

/-- Two programs of the host that make corresponding requests of corresponding memories, and have
corresponding results. -/
inductive Host.Shifts (k : Nat) : Host Value → Host Value → Prop
  /-- They give values that correspond. -/
  | done {v v' : Value} (h : v.Shifts k v') : Shifts k (.done v) (.done v')
  /-- They fail with one error. -/
  | fail (e : Error) : Shifts k (.fail e) (.fail e)
  /-- They go on alike with memories that correspond. -/
  | read {next next' : Memory → Host Value}
      (h : ∀ m m', m.Shifts k m' → Shifts k (next m) (next' m')) :
      Shifts k (.read next) (.read next')
  /-- They write memories that correspond. -/
  | write {m m' : Memory} {next next' : Host Value} (hm : m.Shifts k m') (h : Shifts k next next') :
      Shifts k (.write m next) (.write m' next')
  /-- They call one method, of a signature that can be read, with values that correspond. -/
  | call {s : Signature} {receiver receiver' : Option Value} {args args' : List Value}
      {next next' : Except Error Value → Host Value} (hs : s.Over TypeName.WellFormed)
      (hreceiver : ShiftsOption k receiver receiver') (hargs : ShiftsAll k args args')
      (h : ∀ r r', ShiftsAnswer k r r' → Shifts k (next r) (next' r')) :
      Shifts k (.call s receiver args next) (.call s receiver' args' next')
  /-- They call the delegates at corresponding addresses with values that correspond. -/
  | callDelegate {address : Nat} {args args' : List Value}
      {next next' : Except Error Value → Host Value} (hargs : ShiftsAll k args args')
      (h : ∀ r r', ShiftsAnswer k r r' → Shifts k (next r) (next' r')) :
      Shifts k (.callDelegate address args next)
        (.callDelegate (shiftAddress k address) args' next')
  /-- They put one catalogue in force. -/
  | reload (c : Catalogue) {next next' : Catalogue → Host Value}
      (h : ∀ previous, Shifts k (next previous) (next' previous)) :
      Shifts k (.reload c next) (.reload c next')

/-- What a host method is called with, with the references renamed. -/
def HostCall.shift (k : Nat) (c : HostCall) : HostCall :=
  { c with receiver := c.receiver.shift k, args := c.args.map (Value.shift k) }

/-- Code of the host that does not see the addresses of delegates. -/
def HostCode.Uniform (code : HostCode) : Prop :=
  ∀ (k : Nat) (c : HostCall), c.Over TypeName.WellFormed → Host.Shifts k (code c) (code (c.shift k))

/-- A type whose values start without regard to the addresses of delegates. -/
def TypeDefinition.Uniform (d : TypeDefinition) : Prop :=
  ∀ initial, d.initial = some initial → ∀ k, ActionShifts k (Value.Shifts k) initial initial

/-- A field of the host that is read and written without regard to the addresses of delegates. -/
structure Accessor.Uniform (a : Accessor) : Prop where
  /-- It is read so. -/
  get : ∀ (k : Nat) (target : Value), target.Over TypeName.WellFormed →
    ActionShifts k (ShiftsAnswer k) (a.get target) (a.get (target.shift k))
  /-- It is written so, if it can be written. -/
  set : ∀ write, a.set? = some write → ∀ (k : Nat) (target v : Value),
    target.Over TypeName.WellFormed → v.Over TypeName.WellFormed →
    ActionShifts k (fun r r' => r' = r) (write target v) (write (target.shift k) (v.shift k))

/-- A host that does not see the addresses of delegates. -/
structure SymbolTable.Uniform (symbols : SymbolTable) : Prop where
  /-- The values of its types start without regard to them. -/
  types : ∀ name d, symbols.findType? name = some d → d.Uniform
  /-- Its fields are read and written without regard to them. -/
  fields : ∀ key a, symbols.findField? key = some a → a.Uniform
  /-- Its methods do not see them. -/
  methods : ∀ h code, symbols.code? h = some code → HostCode.Uniform code

/-- A scope whose host does not see the addresses of delegates, and whose descriptors have locals of
types that can be read. -/
structure Scope.Uniform (scope : Scope) : Prop where
  /-- The host does not see them. -/
  symbols : scope.symbols.Uniform
  /-- The types of the locals can be read. -/
  locals : ∀ keys d, scope.catalogue.find? keys = some d → ∀ t ∈ d.body.locals, t.WellFormed

/-- A module of a host that does not see the addresses of delegates. -/
structure Module.Uniform (m : Module) : Prop where
  /-- The values of its types start without regard to them. -/
  types : m.types.Holds TypeDefinition.Uniform
  /-- Its methods do not see them. -/
  methods : m.methods.Holds fun d => HostCode.Uniform d.code
  /-- Its fields are read and written without regard to them. -/
  fields : m.fields.Holds Accessor.Uniform

/-- A host does not see them if its modules do not. -/
theorem SymbolTable.uniform_of_modules {symbols : SymbolTable}
    (h : ∀ m ∈ symbols.modules, m.Uniform) : symbols.Uniform where
  types _ _ hd := holds_findType? (fun m hm => (h m hm).types) hd
  fields _ _ ha := holds_findField? (fun m hm => (h m hm).fields) ha
  methods _ _ hcode := holds_code? (fun m hm => (h m hm).methods) hcode

/-! ### Types and fields that have been looked up -/

/-- A type that can be read, whose values start without regard to the addresses of delegates. -/
structure TypeHandle.Uniform (h : TypeHandle) : Prop where
  /-- The type can be read. -/
  name : h.name.WellFormed
  /-- Its values start without regard to them. -/
  definition : ∀ d ∈ h.definition, d.Uniform

/-- A field whose type can be read, that is read and written without regard to the addresses of
delegates. -/
structure FieldHandle.Uniform (f : FieldHandle) : Prop where
  /-- The type can be read. -/
  fieldType : ∀ t ∈ f.fieldType, t.WellFormed
  /-- The host reads and writes the field without regard to them. -/
  accessor : ∀ a ∈ f.accessor, a.Uniform

/-- A type that such a host has looked up is one that starts without regard to addresses. -/
theorem SymbolTable.Uniform.handle {symbols : SymbolTable} (hs : symbols.Uniform) {t : TypeName}
    (ht : t.WellFormed) {handle : TypeHandle} (h : symbols.handleOf t = .ok handle) :
    handle.Uniform := by
  have hname := (name_of_handleOf h).1
  refine ⟨hname ▸ ht, fun d hd => ?_⟩
  obtain ⟨name, hfound⟩ := exists_findType?_of_handleOf h hd
  exact hs.types name d hfound

/-- A field that it has looked up is read and written without regard to them. -/
theorem SymbolTable.Uniform.field {symbols : SymbolTable} (hs : symbols.Uniform) {ref : FieldRef}
    {cx : GenericContext} {f : FieldHandle}
    (hwf : ∀ closed, closeField ref cx = .ok closed → closed.WellFormed)
    (h : symbols.fieldOf ref cx = .ok f) : f.Uniform := by
  obtain ⟨closed, hclose, rfl⟩ := exists_closed_of_fieldFound h
  refine ⟨(hwf closed hclose).fieldType, fun a ha => ?_⟩
  rcases Option.or_eq_some_iff.1 ha with h | ⟨-, h⟩
  · exact hs.fields _ a h
  · exact hs.fields _ a h

/-! ## Closing names

With generic arguments that can be read, what can be read is closed to what can be read. -/

/-- A signature that can be read is one of types that can. -/
theorem Signature.WellFormed.over {s : Signature} (h : s.WellFormed) :
    s.Over TypeName.WellFormed :=
  ⟨h.declaringType, TypeName.allWellFormed_iff.1 h.genericArgs,
    TypeName.allWellFormed_iff.1 h.parameters⟩

/-- The generic arguments of such a signature can be read. -/
theorem Signature.Over.context_wellFormed {s : Signature} (h : s.Over TypeName.WellFormed) :
    (GenericContext.ofSignature s).Over TypeName.WellFormed :=
  ⟨TypeName.allWellFormed_iff.1 (TypeName.allWellFormed_args h.declaringType), h.genericArgs⟩

section closing

variable {cx : GenericContext} (hcx : cx.Over TypeName.WellFormed)

include hcx

/-- A type that can be read is closed to one that can. -/
theorem GenericContext.Over.wellFormed_close {t u : TypeName} (ht : t.WellFormed)
    (h : cx.close t = .ok u) : u.WellFormed :=
  TypeName.wellFormed_of_substitute hcx.allWellFormed.1 hcx.allWellFormed.2 t ht
    (mapError_eq_ok.1 h)

/-- A reference that can be read is bound to a method of types that can. -/
theorem BoundMethod.over_wellFormed_of_ofRef {ref : MethodRef} {b : BoundMethod}
    (href : ref.WellFormed) (h : ofRef ref cx = .ok b) : b.Over TypeName.WellFormed := by
  have hsignature := (wellFormed_of_ofRef h href.signature hcx.allWellFormed.1
    hcx.allWellFormed.2).over
  refine ⟨hsignature, ?_⟩
  rw [(ofRef_eq_ok h).2.1]
  exact hsignature.context_wellFormed

end closing

/-! ## The frame -/

namespace FrameAction.Shifts

variable {symbols : SymbolTable} {α α' : Type} {Q : α → α' → Prop}

/-- Corresponding values may be pushed. -/
theorem push {v v' : Value} (hv : v.Shifts k v') :
    FrameAction.Shifts symbols k (fun _ _ => True) (push v) (push v') := by
  obtain ⟨rfl, hv⟩ := hv
  exact .modify fun f hf => ⟨rfl, hf.context, hf.args, hf.locals,
    List.forall_mem_cons.2 ⟨hv, hf.stack⟩⟩

/-- An empty stack is the same fault on both sides. -/
theorem underflow : FrameAction.Shifts symbols k Q (underflow : FrameAction α)
    (underflow : FrameAction α') := by
  refine get.bind ?_
  rintro f _ ⟨rfl, -⟩
  exact fail _

/-- Corresponding operands are popped. -/
theorem pop : FrameAction.Shifts symbols k (Value.Shifts k) pop pop := by
  unfold FrameAction.pop
  refine get.bind ?_
  rintro f _ ⟨rfl, hf⟩
  dsimp only [Frame.shift]
  cases hstack : f.stack with
  | nil => exact underflow
  | cons v rest =>
    obtain ⟨hv, hrest⟩ := List.forall_mem_cons.1 (hstack ▸ hf.stack)
    refine bind (modify fun g hg => ?_) fun _ _ _ => .pure ⟨rfl, hv⟩
    exact ⟨rfl, hg.context, hg.args, hg.locals, hrest⟩

/-- So are several. -/
theorem popMany (count : Nat) :
    FrameAction.Shifts symbols k (ShiftsAll k) (popMany count) (popMany count) := by
  unfold FrameAction.popMany
  refine get.bind ?_
  rintro f _ ⟨rfl, hf⟩
  dsimp only [Frame.shift]
  rw [List.length_map, ← List.map_drop, ← List.map_take, ← List.map_reverse]
  split
  · exact underflow
  · refine bind (modify fun g hg => ?_) fun _ _ _ => .pure ⟨rfl, fun v hv => ?_⟩
    · exact ⟨rfl, hg.context, hg.args, hg.locals, fun v hv => hf.stack v (List.mem_of_mem_drop hv)⟩
    · exact hf.stack v (List.mem_of_mem_take (List.mem_reverse.1 hv))

/-- So are two. -/
theorem popPair : FrameAction.Shifts symbols k (fun p p' => p.1.Shifts k p'.1 ∧ p.2.Shifts k p'.2)
    popPair popPair :=
  pop.bind fun _ _ hb => pop.bind fun _ _ ha => .pure ⟨ha, hb⟩

/-- Corresponding arguments are read. -/
theorem loadArg (slot : Nat) :
    FrameAction.Shifts symbols k (Value.Shifts k) (loadArg slot) (loadArg slot) := by
  unfold FrameAction.loadArg
  refine get.bind ?_
  rintro f _ ⟨rfl, hf⟩
  dsimp only [Frame.shift]
  rw [List.getElem?_map, List.length_map]
  cases harg : f.args[slot]? with
  | none => exact malformed _
  | some v => exact .pure ⟨rfl, hf.args v (List.mem_of_getElem? harg)⟩

/-- Corresponding values may be stored as arguments. -/
theorem storeArg (slot : Nat) {v v' : Value} (hv : v.Shifts k v') :
    FrameAction.Shifts symbols k (fun _ _ => True) (storeArg slot v) (storeArg slot v') := by
  obtain ⟨rfl, hv⟩ := hv
  unfold FrameAction.storeArg
  refine get.bind ?_
  rintro f _ ⟨rfl, hf⟩
  simp only [Frame.shift, List.length_map]
  split
  · refine modify fun g hg => ⟨?_, hg.context, fun w hw => ?_, hg.locals, hg.stack⟩
    · exact congrArg (fun args => { g.shift k with args }) (List.map_set ..).symm
    · rcases List.mem_or_eq_of_mem_set hw with hw | rfl
      · exact hg.args w hw
      · exact hv
  · exact malformed _

/-- Corresponding locals are read. -/
theorem loadLocal (slot : Nat) :
    FrameAction.Shifts symbols k (Value.Shifts k) (loadLocal slot) (loadLocal slot) := by
  unfold FrameAction.loadLocal
  refine get.bind ?_
  rintro f _ ⟨rfl, hf⟩
  dsimp only [Frame.shift]
  rw [List.getElem?_map, List.length_map]
  cases hlocal : f.locals[slot]? with
  | none => exact malformed _
  | some v => exact .pure ⟨rfl, hf.locals v (List.mem_of_getElem? hlocal)⟩

/-- Corresponding values may be stored as locals. -/
theorem storeLocal (slot : Nat) {v v' : Value} (hv : v.Shifts k v') :
    FrameAction.Shifts symbols k (fun _ _ => True) (storeLocal slot v) (storeLocal slot v') := by
  obtain ⟨rfl, hv⟩ := hv
  unfold FrameAction.storeLocal
  refine get.bind ?_
  rintro f _ ⟨rfl, hf⟩
  simp only [Frame.shift, List.length_map]
  split
  · refine modify fun g hg => ⟨?_, hg.context, hg.args, fun w hw => ?_, hg.stack⟩
    · exact congrArg (fun locals => { g.shift k with locals }) (List.map_set ..).symm
    · rcases List.mem_or_eq_of_mem_set hw with hw | rfl
      · exact hg.locals w hw
      · exact hv
  · exact malformed _

/-! ### The operand

What is read from an operand is no reference, so it is the same on both sides. -/

variable (i : Instruction)

/-- A slot in the operand is the same on both sides. -/
theorem slotOperand :
    FrameAction.Shifts symbols k (fun n n' => n' = n) (slotOperand i) (slotOperand i) := by
  unfold FrameAction.slotOperand
  split
  · exact .pure rfl
  · split
    · exact malformed _
    · exact .pure rfl
  · exact malformed _

/-- So is a slot that may be part of the opcode. -/
theorem slotOf (slot : Option Nat) :
    FrameAction.Shifts symbols k (fun n n' => n' = n) (slotOf slot i) (slotOf slot i) := by
  unfold FrameAction.slotOf
  split
  · exact .pure rfl
  · exact slotOperand i

/-- So is an integer. -/
theorem intOperand :
    FrameAction.Shifts symbols k (fun n n' => n' = n) (intOperand i) (intOperand i) := by
  unfold FrameAction.intOperand
  split
  · exact .pure rfl
  · exact malformed _

/-- So is a floating-point number. -/
theorem floatOperand :
    FrameAction.Shifts symbols k (fun x x' => x' = x) (floatOperand i) (floatOperand i) := by
  unfold FrameAction.floatOperand
  split
  · exact .pure rfl
  · exact .pure rfl
  · exact malformed _

/-- So is a string. -/
theorem stringOperand :
    FrameAction.Shifts symbols k (fun text text' => text' = text) (stringOperand i)
      (stringOperand i) := by
  unfold FrameAction.stringOperand
  split
  · exact .pure rfl
  · exact malformed _

/-- So is a branch target. -/
theorem targetOperand :
    FrameAction.Shifts symbols k (fun offset offset' => offset' = offset) (targetOperand i)
      (targetOperand i) := by
  unfold FrameAction.targetOperand
  split
  · exact .pure rfl
  · exact malformed _

/-- So are several. -/
theorem targetsOperand :
    FrameAction.Shifts symbols k (fun offsets offsets' => offsets' = offsets) (targetsOperand i)
      (targetsOperand i) := by
  unfold FrameAction.targetsOperand
  split
  · exact .pure rfl
  · exact malformed _

/-- So is a method reference, and it can be read. -/
theorem methodOperand :
    FrameAction.Shifts symbols k (fun ref ref' => ref' = ref ∧ ref.WellFormed) (methodOperand i)
      (methodOperand i) := by
  unfold FrameAction.methodOperand
  split
  · refine (ofExcept_same _).conseq ?_
    rintro _ ref ⟨rfl, hparse⟩
    exact ⟨rfl, MethodRef.wellFormed_of_parse (mapError_eq_ok.1 hparse)⟩
  · exact malformed _

/-- A text is closed to the same type on both sides, and the type can be read. -/
theorem closedType (text : String) :
    FrameAction.Shifts symbols k (fun t t' => t' = t ∧ t.WellFormed) (closedType text)
      (closedType text) := by
  unfold FrameAction.closedType
  refine (ofExcept_same _).bind ?_
  rintro _ t ⟨rfl, hparse⟩
  refine get.bind ?_
  rintro f _ ⟨rfl, hf⟩
  have ht : t.WellFormed := TypeName.wellFormed_of_parse (mapError_eq_ok.1 hparse)
  refine (ofExcept_same _).conseq ?_
  rintro _ u ⟨rfl, hclose⟩
  exact ⟨rfl, hf.context.wellFormed_close ht hclose⟩

/-- So is a type in the operand. -/
theorem typeOperand :
    FrameAction.Shifts symbols k (fun t t' => t' = t ∧ t.WellFormed) (typeOperand i)
      (typeOperand i) := by
  unfold FrameAction.typeOperand
  split
  · exact closedType _
  · exact malformed _

/-- So is a type that a token stands for. -/
theorem tokenOperand :
    FrameAction.Shifts symbols k (fun t t' => t' = t ∧ t.WellFormed) (tokenOperand i)
      (tokenOperand i) := by
  unfold FrameAction.tokenOperand
  split
  · exact closedType _
  · exact malformed _

end FrameAction.Shifts

end Hotswap
