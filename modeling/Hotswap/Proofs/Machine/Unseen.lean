import Hotswap.Proofs.Machine.Uniform

/-!
# A delegate that is not seen

In a scope that is uniform, nothing that is run tells whether memory holds one delegate more. Run
with it and without it, an instruction has corresponding outcomes from corresponding frames and
states (`shifts_step`), and so have rounds, descriptors, programs of the host and, by induction on
the fuel, whole methods (`shifts_call`). The stops are the same: the same errors, and running out of
fuel at the same place.

The instructions are taken part by part, with one rule for each. Whatever two corresponding sides
have in common, a method that is chosen or a type that is found, is stated to be equal; values, and
lists of them, correspond.
-/

namespace Hotswap

open FrameAction

variable {scope : Scope} {callee : Callee} {k : Nat}

/-! ## Callees -/

/-- A callee that has corresponding outcomes when it is called with corresponding values. -/
structure Callee.Shifts (symbols : SymbolTable) (k : Nat) (callee : Callee) : Prop where
  /-- A method has. -/
  method : ∀ {m : Method} {receiver receiver' : Option Value} {args args' : List Value},
    m.Readable → ShiftsOption k receiver receiver' → ShiftsAll k args args' →
    Machine.Shifts symbols k (Value.Shifts k) (callee m receiver args) (callee m receiver' args')
  /-- A delegate has. -/
  delegate : ∀ {d : Delegate} {args args' : List Value}, d.method.Readable →
    (∀ v ∈ d.receiver, v.Over TypeName.WellFormed) → ShiftsAll k args args' →
    Machine.Shifts symbols k (Value.Shifts k) (callee.delegate d args)
      (callee.delegate (d.shift k) args')

/-- If methods have corresponding outcomes, so have delegates that are run as their methods are. -/
theorem Callee.Shifts.ofMethod {symbols : SymbolTable}
    {run : Method → Option Value → List Value → Machine Value}
    (h : ∀ {m : Method} {receiver receiver' : Option Value} {args args' : List Value},
      m.Readable → ShiftsOption k receiver receiver' → ShiftsAll k args args' →
      Machine.Shifts symbols k (Value.Shifts k) (run m receiver args) (run m receiver' args')) :
    (Callee.ofMethod run).Shifts symbols k :=
  ⟨h, fun hm hreceiver => h hm ⟨rfl, hreceiver⟩⟩

/-- No value corresponds to no value. -/
theorem ShiftsOption.none : ShiftsOption k .none .none := ⟨rfl, nofun⟩

/-- Values that correspond do so as optional ones. -/
theorem ShiftsOption.some {v v' : Value} (h : v.Shifts k v') :
    ShiftsOption k (.some v) (.some v') := by
  obtain ⟨rfl, hv⟩ := h
  refine ⟨rfl, ?_⟩
  rintro _ ⟨⟩
  exact hv

/-! ## Memory -/

/-- A heap that corresponds may take the place of the one that is there. -/
theorem Memory.Shifts.withHeap {m m' : Memory} (hm : m.Shifts k m') {h h' : Heap}
    (hheap : h.Shifts k h') (hreadable : h.Readable) :
    Memory.Shifts k { m with heap := h } { m' with heap := h' } :=
  ⟨hheap, hm.cells, hreadable, hm.readable.cells⟩

/-- Corresponding states with other memories that correspond still correspond. -/
theorem State.Shifts.withMemory {symbols : SymbolTable} {s s' : State}
    (hs : s.Shifts symbols k s') {m m' : Memory} (hm : m.Shifts k m') :
    State.Shifts symbols k { s with memory := m } { s' with memory := m' } :=
  ⟨hm, hs.statics, hs.readable, hs.sound, hs.sound', hs.methods, hs.catalogue⟩

/-- An object of a type that can be read is made on both sides. -/
theorem actionShifts_newObject {type : TypeName} (h : type.WellFormed) :
    ActionShifts k (Value.Shifts k) (fun m => m.newObject type) (fun m => m.newObject type) := by
  intro m m' hm
  obtain ⟨hr, hheap⟩ := hm.heap.newObject type {}
  refine ⟨⟨congrArg Value.object hr, h⟩, ?_⟩
  have hreadable := hm.readable.heap
  exact hm.withHeap hheap ⟨hreadable.types.newObject type .empty, hreadable.locals⟩

/-- A delegate of a method that can be read is made on both sides. -/
theorem actionShifts_newDelegate {m : Method} (hm : m.Readable) {receiver : Option Value}
    (hreceiver : ∀ v ∈ receiver, v.Over TypeName.WellFormed) :
    ActionShifts k (fun address address' => address' = shiftAddress k address)
      (fun memory =>
        let (address, heap) := memory.heap.newDelegate ⟨m, receiver⟩
        (address, { memory with heap }))
      (fun memory =>
        let (address, heap) := memory.heap.newDelegate ⟨m, receiver.map (Value.shift k)⟩
        (address, { memory with heap })) := by
  intro memory memory' hmemory
  obtain ⟨haddress, hheap⟩ := hmemory.heap.newDelegate ⟨m, receiver⟩
  have hreadable := hmemory.readable.heap
  refine ⟨haddress, hmemory.withHeap hheap
    ⟨hreadable.types.newDelegate ⟨hm.types, hreceiver⟩, fun d hd => ?_⟩⟩
  rcases Array.mem_push.1 hd with hd | rfl
  · exact hreadable.locals d hd
  · exact hm.locals

/-- The default of a type corresponds to itself. -/
theorem TypeHandle.Uniform.shifts_defaultValue {handle : TypeHandle} (h : handle.Uniform) :
    ActionShifts k (Value.Shifts k) handle.defaultValue handle.defaultValue := by
  have hnull : ActionShifts k (Value.Shifts k) (pure .null : StateM Memory Value) (pure .null) :=
    fun _ _ hm => ⟨⟨rfl, trivial⟩, hm⟩
  unfold TypeHandle.defaultValue
  split
  · rename_i d hd
    unfold TypeDefinition.defaultValue
    split
    · rename_i initial _ hinitial
      exact h.definition d hd initial hinitial k
    · exact actionShifts_newObject h.name
    · exact hnull
  · exact hnull

namespace Machine.Shifts

variable {symbols : SymbolTable}

/-- An operation on memory with corresponding answers is one of both sides. -/
theorem onMemory? {action action' : MemoryAction Value}
    (h : ActionShifts k (ShiftsAnswer k) action action') :
    Machine.Shifts symbols k (Value.Shifts k) (Machine.onMemory? action)
      (Machine.onMemory? action') := by
  unfold Machine.onMemory?
  exact (onMemory h).bind fun _ _ hr => ofExcept_value hr

/-- So is one with the same answer. -/
theorem onMemory?_same {α : Type} {action action' : MemoryAction α}
    (h : ActionShifts k (fun r r' => r' = r) action action') :
    Machine.Shifts symbols k (fun _ _ => True) (Machine.onMemory? action)
      (Machine.onMemory? action') := by
  unfold Machine.onMemory?
  refine (onMemory h).bind ?_
  rintro _ r rfl
  exact (ofExcept_same r).conseq fun _ _ _ => trivial

end Machine.Shifts

/-! ## Computations of the machine in an instruction -/

/-- A type that can be read is resolved to the same handle. -/
theorem shifts_resolveType (hs : scope.Uniform) {t : TypeName} (ht : t.WellFormed) :
    Machine.Shifts scope.symbols k (fun handle handle' => handle' = handle ∧ handle.Uniform)
      (Machine.resolve (scope.symbols.resolveType t))
      (Machine.resolve (scope.symbols.resolveType t)) := by
  refine (Machine.Shifts.resolve (scope.symbols.answers_resolveType t ht)).conseq ?_
  rintro _ handle ⟨rfl, h⟩
  exact ⟨rfl, hs.symbols.handle ht h⟩

/-- An object is made on both sides. -/
theorem shifts_newObject {symbols : SymbolTable} {type : TypeName} (h : type.WellFormed) :
    Machine.Shifts symbols k (Value.Shifts k) (Machine.newObject type) (Machine.newObject type) :=
  .onMemory (actionShifts_newObject h)

/-- A default is made on both sides. -/
theorem shifts_defaultValue (hs : scope.Uniform) {t : TypeName} (ht : t.WellFormed) :
    Machine.Shifts scope.symbols k (Value.Shifts k) (scope.defaultValue t)
      (scope.defaultValue t) := by
  unfold Scope.defaultValue
  split
  · refine (shifts_resolveType hs ht).bind ?_
    rintro _ handle ⟨rfl, hhandle⟩
    exact .onMemory hhandle.shifts_defaultValue
  · exact .pure ⟨rfl, trivial⟩

/-- The host method of a bound method depends on what is remembered of methods and not on what is
remembered of types. -/
theorem shifts_hostMethod? (symbols : SymbolTable) (b : BoundMethod) :
    Machine.Shifts symbols k (fun found found' => found' = found)
      (Machine.resolve (symbols.hostMethod? b)) (Machine.resolve (symbols.hostMethod? b)) := by
  intro s s' hs
  show Shifted symbols k _
    (.ok (symbols.hostMethod? b s.memo).1, { s with memo := (symbols.hostMethod? b s.memo).2 })
    (.ok (symbols.hostMethod? b s'.memo).1, { s' with memo := (symbols.hostMethod? b s'.memo).2 })
  rw [SymbolTable.hostMethod?_apply, SymbolTable.hostMethod?_apply, hs.methods]
  cases s.memo.methods.get? b.signature.render with
  | some outcome => exact .ok rfl hs
  | none =>
    exact .ok rfl ⟨hs.memory, hs.statics, hs.readable, hs.sound, hs.sound', rfl, hs.catalogue⟩

/-- A search for a method finds the same one. -/
theorem shifts_method? (hs : scope.Uniform) {b : BoundMethod} (hb : b.Over TypeName.WellFormed) :
    Machine.Shifts scope.symbols k (fun found found' => found' = found ∧ ∀ m ∈ found, m.Readable)
      (scope.method? b) (scope.method? b) := by
  unfold Scope.method?
  split
  · rename_i d hd
    refine .pure ⟨rfl, ?_⟩
    rintro _ ⟨⟩
    refine ⟨⟨hb.signature, hb.context⟩, ?_⟩
    rintro _ ⟨⟩
    exact hs.locals b.keys d hd
  · refine (shifts_hostMethod? scope.symbols b).bind ?_
    rintro _ found rfl
    refine .pure ⟨rfl, fun m hm => ?_⟩
    obtain ⟨h, -, rfl⟩ := Option.map_eq_some_iff.1 hm
    exact ⟨⟨hb.signature, hb.context⟩, nofun⟩

/-- So it does where there has to be one. -/
theorem shifts_method (hs : scope.Uniform) {b : BoundMethod} (hb : b.Over TypeName.WellFormed) :
    Machine.Shifts scope.symbols k (fun m m' => m' = m ∧ m.Readable) (scope.method b)
      (scope.method b) := by
  unfold Scope.method
  refine (shifts_method? hs hb).bind ?_
  rintro _ found ⟨rfl, hfound⟩
  split
  · exact .pure ⟨rfl, hfound _ rfl⟩
  · exact .fail _

/-- A delegate is called at the address that it is moved to. -/
theorem shifts_callDelegate {symbols : SymbolTable} (hc : callee.Shifts symbols k) (address : Nat)
    {args args' : List Value} (hargs : ShiftsAll k args args') :
    Machine.Shifts symbols k (Value.Shifts k) (Step.callDelegate callee address args)
      (Step.callDelegate callee (shiftAddress k address) args') := by
  unfold Step.callDelegate
  refine .get_bind fun s s' hs => ?_
  rw [hs.memory.heap.delegate?]
  cases hd : s.memory.heap.delegate? address with
  | none => exact .fail _
  | some d =>
    have hmem : d ∈ s.memory.heap.delegates := Array.mem_of_getElem? hd
    have hreadable := hs.memory.readable.heap
    have hover := hreadable.types.delegates d hmem
    exact hc.delegate ⟨hover.method, hreadable.locals d hmem⟩ hover.receiver hargs

/-- An object is constructed on both sides. -/
theorem shifts_construct (hs : scope.Uniform) (hc : callee.Shifts scope.symbols k)
    {type : TypeName} (htype : type.WellFormed) {b : BoundMethod} (hb : b.Over TypeName.WellFormed)
    {args args' : List Value} (hargs : ShiftsAll k args args') :
    Machine.Shifts scope.symbols k (Value.Shifts k) (Step.construct scope callee type b args)
      (Step.construct scope callee type b args') := by
  unfold Step.construct
  refine (shifts_method? hs hb).bind ?_
  rintro _ found ⟨rfl, hfound⟩
  cases found with
  | some constructor =>
    have hconstructor := hfound constructor rfl
    dsimp only
    split
    · refine (shifts_newObject htype).bind fun v v' hv => ?_
      exact (hc.method hconstructor (.some hv) hargs).discard.bind fun _ _ _ => .pure hv
    · exact hc.method hconstructor .none hargs
  | none =>
    obtain ⟨rfl, -⟩ := hargs
    dsimp only
    rw [List.isEmpty_map]
    split
    · exact shifts_newObject htype
    · exact .fail _

/-- The default of a field is made on both sides. -/
theorem shifts_fieldDefault (hs : scope.Uniform) {f : FieldHandle} (hf : f.Uniform) :
    Machine.Shifts scope.symbols k (Value.Shifts k) (Step.fieldDefault scope f)
      (Step.fieldDefault scope f) := by
  unfold Step.fieldDefault
  split
  · rename_i t ht
    exact shifts_defaultValue hs (hf.fieldType t ht)
  · exact .pure ⟨rfl, trivial⟩

/-- A field is read on both sides. -/
theorem shifts_loadField (hs : scope.Uniform) {f : FieldHandle} (hf : f.Uniform)
    {target target' : Value} (htarget : target.Shifts k target') :
    Machine.Shifts scope.symbols k (Value.Shifts k) (Step.loadField scope f target)
      (Step.loadField scope f target') := by
  obtain ⟨rfl, htarget⟩ := htarget
  unfold Step.loadField
  cases haccessor : f.accessor with
  | some a => exact .onMemory? ((hf.accessor a haccessor).get k target htarget)
  | none =>
    cases target with
    | object r =>
      refine .get_bind fun s s' hs' => ?_
      rw [hs'.memory.heap.field?]
      cases hfield : s.memory.heap.field? r f.name with
      | some v => exact .pure ⟨rfl, hs'.memory.readable.heap.types.field? hfield⟩
      | none => exact shifts_fieldDefault hs hf
    | _ => exact .fail _

/-- A field of the host is written on both sides. -/
theorem shifts_set {a : Accessor} (ha : a.Uniform) (key : String) {target v : Value}
    (htarget : target.Over TypeName.WellFormed) (hv : v.Over TypeName.WellFormed) :
    ActionShifts k (fun r r' => r' = r) (a.set key target v)
      (a.set key (target.shift k) (v.shift k)) := by
  unfold Accessor.set
  split
  · rename_i write hwrite
    exact ha.set write hwrite k target v htarget hv
  · exact fun m m' hm => ⟨rfl, hm⟩

/-- A field is written on both sides. -/
theorem shifts_storeField {symbols : SymbolTable} {f : FieldHandle} (hf : f.Uniform)
    {target target' v v' : Value} (htarget : target.Shifts k target') (hv : v.Shifts k v') :
    Machine.Shifts symbols k (fun _ _ => True) (Step.storeField f target v)
      (Step.storeField f target' v') := by
  obtain ⟨rfl, htarget⟩ := htarget
  obtain ⟨rfl, hv⟩ := hv
  unfold Step.storeField
  cases haccessor : f.accessor with
  | some a => exact .onMemory?_same (shifts_set (hf.accessor a haccessor) f.key htarget hv)
  | none =>
    cases target with
    | object r =>
      refine .modify fun s s' hs => hs.withMemory ?_
      have hreadable := hs.memory.readable.heap
      exact hs.memory.withHeap (hs.memory.heap.setField r f.name v)
        ⟨hreadable.types.setField r f.name hv, hreadable.locals⟩
    | _ => exact .fail _

/-- A static field is read on both sides. -/
theorem shifts_loadStatic (hs : scope.Uniform) {f : FieldHandle} (hf : f.Uniform) :
    Machine.Shifts scope.symbols k (Value.Shifts k) (Step.loadStatic scope f)
      (Step.loadStatic scope f) := by
  unfold Step.loadStatic
  cases haccessor : f.accessor with
  | some a => exact .onMemory? ((hf.accessor a haccessor).get k .null trivial)
  | none =>
    refine .get_bind fun s s' hs' => ?_
    rw [hs'.statics, Table.get?_map]
    cases hstatic : s.statics.get? f.key with
    | some v => exact .pure ⟨rfl, hs'.readable.get? hstatic⟩
    | none => exact shifts_fieldDefault hs hf

/-- A static field is written on both sides. -/
theorem shifts_storeStatic {symbols : SymbolTable} {f : FieldHandle} (hf : f.Uniform)
    {v v' : Value} (hv : v.Shifts k v') :
    Machine.Shifts symbols k (fun _ _ => True) (Step.storeStatic f v) (Step.storeStatic f v') := by
  obtain ⟨rfl, hv⟩ := hv
  unfold Step.storeStatic
  cases haccessor : f.accessor with
  | some a =>
    have hnull : Value.null.Over TypeName.WellFormed := trivial
    exact .onMemory?_same (shifts_set (hf.accessor a haccessor) f.key hnull hv)
  | none =>
    refine .modify fun s s' hs => ⟨hs.memory, ?_, hs.readable.insert hv, hs.sound, hs.sound',
      hs.methods, hs.catalogue⟩
    show s'.statics.insert f.key (v.shift k) = (s.statics.insert f.key v).map (Value.shift k)
    rw [Table.map_insert, hs.statics]

/-- The items of two arrays correspond. -/
def ShiftsItems (k : Nat) (items items' : Array Value) : Prop :=
  items' = items.map (Value.shift k) ∧ ∀ v ∈ items, v.Over TypeName.WellFormed

/-- Corresponding items with one more on each side still correspond. -/
theorem ShiftsItems.push {items items' : Array Value} {v v' : Value}
    (h : ShiftsItems k items items') (hv : v.Shifts k v') :
    ShiftsItems k (items.push v) (items'.push v') := by
  obtain ⟨rfl, hitems⟩ := h
  obtain ⟨rfl, hv⟩ := hv
  refine ⟨(Array.map_push ..).symm, fun w hw => ?_⟩
  rcases Array.mem_push.1 hw with hw | rfl
  · exact hitems w hw
  · exact hv

/-- The items of a new array correspond. -/
theorem shifts_freshItems {symbols : SymbolTable} {fill fill' : Value}
    (hfill : fill.Shifts k fill') (count : Nat) :
    Machine.Shifts symbols k (ShiftsItems k) (Step.freshItems fill count)
      (Step.freshItems fill' count) := by
  obtain ⟨rfl, hfill⟩ := hfill
  induction count with
  | zero => exact .pure ⟨Array.map_empty.symm, fun v hv => absurd hv (Array.not_mem_empty v)⟩
  | succ count ih =>
    unfold Step.freshItems
    refine ih.bind fun items items' hitems => ?_
    cases fill with
    | object r => exact (shifts_newObject hfill).bind fun v v' hv => .pure (hitems.push hv)
    | _ => exact .pure (hitems.push ⟨rfl, hfill⟩)

/-- An array is made on both sides. -/
theorem shifts_makeArray (hs : scope.Uniform) {element : TypeName} (helement : element.WellFormed)
    (length : Int64) :
    Machine.Shifts scope.symbols k (Value.Shifts k) (Step.makeArray scope element length)
      (Step.makeArray scope element length) := by
  unfold Step.makeArray
  split
  · exact .fail _
  · refine (shifts_defaultValue hs helement).bind fun fill fill' hfill => ?_
    refine (shifts_freshItems hfill _).bind ?_
    rintro items _ ⟨rfl, hitems⟩
    refine .onMemory fun m m' hm => ?_
    obtain ⟨hr, hheap⟩ := hm.heap.newArray element items
    refine ⟨⟨congrArg Value.array hr, helement⟩, ?_⟩
    have hreadable := hm.readable.heap
    exact hm.withHeap hheap ⟨hreadable.types.newArray element hitems, hreadable.locals⟩

/-! ## Instructions -/

/-- Control goes to the same place, or back to the caller with results that correspond. -/
inductive Flow.Shifts (k : Nat) : Flow → Flow → Prop
  /-- To the instruction that follows. -/
  | next : Shifts k .next .next
  /-- To one branch target. -/
  | jump (target : UInt32) : Shifts k (.jump target) (.jump target)
  /-- Back to the caller. -/
  | leave {v v' : Value} (h : v.Shifts k v') : Shifts k (.leave v) (.leave v')

namespace FrameAction.Shifts

variable (hs : scope.Uniform) {i : Instruction}

/-- Corresponding receivers are popped, if there are any. -/
theorem popReceiver {symbols : SymbolTable} (m : Method) :
    FrameAction.Shifts symbols k (ShiftsOption k) (Step.popReceiver m) (Step.popReceiver m) := by
  unfold Step.popReceiver
  split
  · exact .pure .none
  · exact pop.map fun _ _ hv => .some hv

/-- Corresponding results are pushed, if there are any. -/
theorem pushUnlessVoid {symbols : SymbolTable} (void : Bool) {v v' : Value} (hv : v.Shifts k v') :
    FrameAction.Shifts symbols k (fun _ _ => True)
      (do unless void do FrameAction.push v) (do unless void do FrameAction.push v') := by
  split
  · exact .pure trivial
  · exact push hv

/-- A reference is bound to the same method, and its types can be read. -/
theorem bound {symbols : SymbolTable} {ref : MethodRef} (href : ref.WellFormed) :
    FrameAction.Shifts symbols k (fun b b' => b' = b ∧ b.Over TypeName.WellFormed) (Step.bound ref)
      (Step.bound ref) := by
  unfold Step.bound
  refine get.bind ?_
  rintro f _ ⟨rfl, hf⟩
  refine (ofExcept_same _).conseq ?_
  rintro _ b ⟨rfl, hb⟩
  exact ⟨rfl, BoundMethod.over_wellFormed_of_ofRef hf.context href hb⟩

/-- The `Invoke` of a delegate is called on both sides. -/
theorem invokeDelegate {symbols : SymbolTable} (hc : callee.Shifts symbols k) (ref : MethodRef) :
    FrameAction.Shifts symbols k (fun _ _ => True) (Step.invokeDelegate callee ref)
      (Step.invokeDelegate callee ref) := by
  unfold Step.invokeDelegate
  refine (popMany _).bind fun args args' hargs => pop.bind ?_
  rintro target _ ⟨rfl, -⟩
  cases target with
  | delegate address =>
    exact (ofMachine (shifts_callDelegate hc address hargs)).bind fun _ _ hv =>
      pushUnlessVoid _ hv
  | _ => exact fail _

/-- A delegate is made of a function on both sides. -/
theorem newDelegate {symbols : SymbolTable} :
    FrameAction.Shifts symbols k (fun _ _ => True) Step.newDelegate Step.newDelegate := by
  unfold Step.newDelegate
  refine pop.bind ?_
  rintro v _ ⟨rfl, hv⟩
  cases v with
  | delegate address =>
    refine get.bind ?_
    rintro f _ ⟨rfl, -⟩
    dsimp only [Value.shift]
    rw [Frame.pendingTarget_shift]
    split
    · refine bind (modify fun g hg => ?_) fun _ _ _ => pop.discard.bind fun _ _ _ => push ⟨rfl, hv⟩
      exact ⟨rfl, hg.context, hg.args, hg.locals, hg.stack⟩
    · exact push ⟨rfl, hv⟩
  | _ => exact malformed _

/-- The same index is popped. -/
theorem popIndex {symbols : SymbolTable} :
    FrameAction.Shifts symbols k (fun n n' => n' = n) Step.popIndex Step.popIndex := by
  unfold Step.popIndex
  refine pop.bind ?_
  rintro v _ ⟨rfl, -⟩
  rw [integerFor_shift]
  exact (ofExcept_same _).conseq fun _ _ h => h.1

/-- The same array is popped. -/
theorem popArray {symbols : SymbolTable} (operation : String) :
    FrameAction.Shifts symbols k (fun r r' => r' = r)
      (Step.popArray operation) (Step.popArray operation) := by
  unfold Step.popArray
  refine pop.bind ?_
  rintro v _ ⟨rfl, -⟩
  cases v with
  | array r => exact .pure rfl
  | _ => exact fail _

/-- The two heaps correspond. -/
theorem heap {symbols : SymbolTable} :
    FrameAction.Shifts symbols k (fun h h' => h.Shifts k h' ∧ h.Readable) Step.heap Step.heap :=
  ofMachine (.get_bind fun _ _ hs => .pure ⟨hs.memory.heap, hs.memory.readable.heap⟩)

/-- An item is stored on both sides. -/
theorem storeItem {symbols : SymbolTable} :
    FrameAction.Shifts symbols k (fun _ _ => True) Step.storeItem Step.storeItem := by
  unfold Step.storeItem
  refine pop.bind ?_
  rintro v _ ⟨rfl, hv⟩
  refine popIndex.bind ?_
  rintro _ index rfl
  refine (popArray _).bind ?_
  rintro _ r rfl
  refine heap.bind ?_
  rintro h h' ⟨hh, hreadable⟩
  rcases hh.setItem r index v with ⟨g, g', hset, hset', hg, hdelegates⟩ | ⟨e, hset, hset'⟩
  · rw [hset, hset']
    have hg' : g.Readable := ⟨hreadable.types.setItem hv hset, hdelegates ▸ hreadable.locals⟩
    exact ofMachine (.modify fun s s' hs => hs.withMemory (hs.memory.withHeap hg hg'))
  · rw [hset, hset']
    exact fail e

/-- A branch goes to the same offset. -/
theorem branch {symbols : SymbolTable} (taken : Bool) :
    FrameAction.Shifts symbols k (Flow.Shifts k) (Step.branch i taken) (Step.branch i taken) := by
  unfold Step.branch
  split
  · refine (targetOperand i).map ?_
    rintro _ target rfl
    exact .jump target
  · exact .pure .next

/-- A multi-way branch goes to the same offset. -/
theorem multiway {symbols : SymbolTable} :
    FrameAction.Shifts symbols k (Flow.Shifts k) (Step.multiway i) (Step.multiway i) := by
  unfold Step.multiway
  refine pop.bind ?_
  rintro v _ ⟨rfl, -⟩
  refine (targetsOperand i).bind ?_
  rintro _ targets rfl
  rw [integerFor_shift]
  refine (ofExcept_same _).bind ?_
  rintro _ position ⟨rfl, -⟩
  split
  · exact .pure (.jump _)
  · exact .pure .next

/-- **A transfer of control is the same on both sides.** -/
theorem transfer {symbols : SymbolTable} (t : Transfer) (ht : (Action.transfer t).Shifts k) :
    FrameAction.Shifts symbols k (Flow.Shifts k) (transfer i t) (transfer i t) := by
  unfold Hotswap.transfer
  cases t with
  | ret =>
    refine get.bind ?_
    rintro f _ ⟨rfl, -⟩
    rw [Frame.descriptor_shift]
    split
    · exact .pure (Flow.Shifts.leave ⟨rfl, trivial⟩)
    · exact pop.map fun _ _ hv => Flow.Shifts.leave hv
  | jump => exact branch true
  | branchIf test =>
    refine pop.bind ?_
    rintro v _ ⟨rfl, -⟩
    rw [ht v]
    refine (ofExcept_same _).bind ?_
    rintro _ taken ⟨rfl, -⟩
    exact branch taken
  | branchOn test =>
    refine popPair.bind ?_
    rintro ⟨a, b⟩ ⟨_, _⟩ ⟨⟨rfl, -⟩, rfl, -⟩
    dsimp only
    rw [ht a b]
    refine (ofExcept_same _).bind ?_
    rintro _ taken ⟨rfl, -⟩
    exact branch taken
  | multiway => exact multiway

include hs

/-- A field in the operand is resolved to the same one. -/
theorem fieldOperand :
    FrameAction.Shifts scope.symbols k (fun f f' => f' = f ∧ f.Uniform) (fieldOperand scope i)
      (fieldOperand scope i) := by
  unfold FrameAction.fieldOperand
  split
  · refine (ofExcept_same _).bind ?_
    rintro _ ref ⟨rfl, hparse⟩
    have href : ref.WellFormed := FieldRef.wellFormed_of_parse (mapError_eq_ok.1 hparse)
    refine get.bind ?_
    rintro f _ ⟨rfl, hf⟩
    have hclosed : ∀ closed, SymbolTable.closeField ref f.context = .ok closed →
        closed.WellFormed := fun _ h => hf.context.wellFormed_closeField href h
    refine ofMachine ((Machine.Shifts.resolve
      (scope.symbols.answers_resolveField fun c h => (hclosed c h).declaringType)).conseq ?_)
    rintro _ field ⟨rfl, hfield⟩
    exact ⟨rfl, hs.symbols.field hclosed hfield⟩
  · exact malformed _

/-- Whether a reference is to the `Invoke` of a delegate is found alike. -/
theorem isDelegateInvoke {ref : MethodRef} (href : ref.WellFormed) :
    FrameAction.Shifts scope.symbols k (fun b b' => b' = b) (Step.isDelegateInvoke scope ref)
      (Step.isDelegateInvoke scope ref) := by
  unfold Step.isDelegateInvoke
  split
  · refine get.bind ?_
    rintro f _ ⟨rfl, hf⟩
    refine (ofExcept_same _).bind ?_
    rintro _ t ⟨rfl, hclose⟩
    have ht : t.WellFormed := hf.context.wellFormed_close href.signature.declaringType hclose
    refine (ofMachine ((shifts_resolveType hs ht).attempt (R := fun r r' => r' = r)
      (fun _ _ h => congrArg Except.ok h.1) fun _ => rfl)).bind ?_
    rintro _ r rfl
    split
    · exact .pure rfl
    · exact .pure rfl
  · exact .pure rfl

variable (hc : callee.Shifts scope.symbols k)

include hc

/-- A method is called on both sides. -/
theorem call :
    FrameAction.Shifts scope.symbols k (fun _ _ => True) (Step.call scope callee i)
      (Step.call scope callee i) := by
  unfold Step.call
  refine (methodOperand i).bind ?_
  rintro _ ref ⟨rfl, href⟩
  refine (isDelegateInvoke hs href).bind ?_
  rintro _ b rfl
  split
  · exact invokeDelegate hc ref
  · refine (bound href).bind ?_
    rintro _ b ⟨rfl, hb⟩
    refine (ofMachine (shifts_method hs hb)).bind ?_
    rintro _ m ⟨rfl, hm⟩
    refine (popMany _).bind fun args args' hargs => (popReceiver m).bind fun r r' hr => ?_
    exact (ofMachine (hc.method hm hr hargs)).bind fun _ _ hv => pushUnlessVoid _ hv

/-- An object is made on both sides, or a delegate. -/
theorem newObject :
    FrameAction.Shifts scope.symbols k (fun _ _ => True) (Step.newObject scope callee i)
      (Step.newObject scope callee i) := by
  unfold Step.newObject
  refine (methodOperand i).bind ?_
  rintro _ ref ⟨rfl, href⟩
  refine get.bind ?_
  rintro f _ ⟨rfl, hf⟩
  refine (ofExcept_same _).bind ?_
  rintro _ t ⟨rfl, hclose⟩
  have ht : t.WellFormed := hf.context.wellFormed_close href.signature.declaringType hclose
  refine (ofMachine (shifts_resolveType hs ht)).bind ?_
  rintro _ handle ⟨rfl, hhandle⟩
  split
  · exact newDelegate
  · refine (bound href).bind ?_
    rintro _ b ⟨rfl, hb⟩
    refine (popMany _).bind fun args args' hargs => ?_
    exact (ofMachine (shifts_construct hs hc hhandle.name hb hargs)).bind fun _ _ hv => push hv

omit hc

/-- A function is loaded on both sides. -/
theorem loadFunction (virtual : Bool) :
    FrameAction.Shifts scope.symbols k (fun _ _ => True) (Step.loadFunction scope virtual i)
      (Step.loadFunction scope virtual i) := by
  unfold Step.loadFunction
  refine (methodOperand i).bind ?_
  rintro _ ref ⟨rfl, href⟩
  refine (bound href).bind ?_
  rintro _ b ⟨rfl, hb⟩
  refine (ofMachine (shifts_method hs hb)).bind ?_
  rintro _ m ⟨rfl, hm⟩
  refine (popReceiver m).bind ?_
  rintro receiver _ ⟨rfl, hreceiver⟩
  refine bind (modify fun g hg => ⟨rfl, hg.context, hg.args, hg.locals, hg.stack⟩) fun _ _ _ => ?_
  refine bind (ofMachine (.onMemory (actionShifts_newDelegate hm hreceiver))) ?_
  rintro address _ rfl
  exact push ⟨rfl, trivial⟩

/-- An array is made on both sides. -/
theorem newArray :
    FrameAction.Shifts scope.symbols k (fun _ _ => True) (Step.newArray scope i)
      (Step.newArray scope i) := by
  unfold Step.newArray
  refine pop.bind ?_
  rintro length _ ⟨rfl, -⟩
  refine (typeOperand i).bind ?_
  rintro _ element ⟨rfl, helement⟩
  rw [integerFor_shift]
  refine (ofExcept_same _).bind ?_
  rintro _ n ⟨rfl, -⟩
  exact (ofMachine (shifts_makeArray hs helement n)).bind fun _ _ hv => push hv

/-- Corresponding values are popped, with the same type. -/
theorem popWithType :
    FrameAction.Shifts scope.symbols k
      (fun p p' => p' = (p.1.shift k, p.2) ∧ p.1.Over TypeName.WellFormed)
      (Step.popWithType scope i) (Step.popWithType scope i) := by
  unfold Step.popWithType
  refine pop.bind ?_
  rintro v _ ⟨rfl, hv⟩
  refine (typeOperand i).bind ?_
  rintro _ t ⟨rfl, ht⟩
  refine (ofMachine (shifts_resolveType hs ht)).bind ?_
  rintro _ handle ⟨rfl, -⟩
  exact .pure ⟨rfl, hv⟩

include hc

/-- **An effect is one of both sides.** -/
theorem perform (e : Effect) (he : (Action.effect e).Shifts k) :
    FrameAction.Shifts scope.symbols k (fun _ _ => True) (perform scope callee i e)
      (perform scope callee i e) := by
  unfold Hotswap.perform
  cases e with
  | skip => exact .pure trivial
  | loadArg slot =>
    refine (slotOf i slot).bind ?_
    rintro _ n rfl
    exact (loadArg n).bind fun _ _ hv => push hv
  | storeArg =>
    refine (slotOperand i).bind ?_
    rintro _ n rfl
    exact pop.bind fun _ _ hv => storeArg n hv
  | loadLocal slot =>
    refine (slotOf i slot).bind ?_
    rintro _ n rfl
    exact (loadLocal n).bind fun _ _ hv => push hv
  | storeLocal slot =>
    refine (slotOf i slot).bind ?_
    rintro _ n rfl
    exact pop.bind fun _ _ hv => storeLocal n hv
  | push v => exact push he
  | pushInt32 =>
    refine (intOperand i).bind ?_
    rintro _ n rfl
    split
    · exact push ⟨rfl, trivial⟩
    · exact malformed _
  | pushInt64 =>
    refine (intOperand i).bind ?_
    rintro _ n rfl
    exact push ⟨rfl, trivial⟩
  | pushFloat32 =>
    refine (floatOperand i).bind ?_
    rintro _ x rfl
    exact push ⟨rfl, trivial⟩
  | pushFloat64 =>
    refine (floatOperand i).bind ?_
    rintro _ x rfl
    exact push ⟨rfl, trivial⟩
  | pushString =>
    refine (stringOperand i).bind ?_
    rintro _ text rfl
    exact push ⟨rfl, trivial⟩
  | dup => exact pop.bind fun _ _ hv => (push hv).bind fun _ _ _ => push hv
  | pop => exact pop.discard
  | call => exact call hs hc
  | newObject => exact newObject hs hc
  | loadFunction virtual => exact loadFunction hs virtual
  | compare test =>
    refine popPair.bind ?_
    rintro ⟨a, b⟩ ⟨_, _⟩ ⟨⟨rfl, -⟩, rfl, -⟩
    dsimp only
    rw [he a b]
    refine (ofExcept_same _).bind ?_
    rintro _ holds ⟨rfl, -⟩
    exact push ⟨rfl, trivial⟩
  | binary operation =>
    refine popPair.bind ?_
    rintro ⟨a, b⟩ ⟨_, _⟩ ⟨⟨rfl, -⟩, rfl, -⟩
    exact (ofExcept_value (he a b)).bind fun _ _ hv => push hv
  | unary operation =>
    refine pop.bind ?_
    rintro v _ ⟨rfl, hv⟩
    exact (ofExcept_value (he v hv)).bind fun _ _ hw => push hw
  | cast =>
    refine (popWithType hs).bind ?_
    rintro ⟨v, t⟩ _ ⟨rfl, hv⟩
    exact (ofExcept_value (shifts_cast scope.symbols hv _)).bind fun _ _ hw => push hw
  | isInstance =>
    refine (popWithType hs).bind ?_
    rintro ⟨v, t⟩ _ ⟨rfl, hv⟩
    dsimp only
    rw [isInstance_shift]
    split
    · exact push ⟨rfl, hv⟩
    · exact push ⟨rfl, trivial⟩
  | loadField =>
    refine (fieldOperand hs).bind ?_
    rintro _ f ⟨rfl, hf⟩
    refine pop.bind fun _ _ htarget => ?_
    exact (ofMachine (shifts_loadField hs hf htarget)).bind fun _ _ hv => push hv
  | storeField =>
    refine (fieldOperand hs).bind ?_
    rintro _ f ⟨rfl, hf⟩
    exact popPair.bind fun _ _ hp => ofMachine (shifts_storeField hf hp.1 hp.2)
  | loadStatic =>
    refine (fieldOperand hs).bind ?_
    rintro _ f ⟨rfl, hf⟩
    exact (ofMachine (shifts_loadStatic hs hf)).bind fun _ _ hv => push hv
  | storeStatic =>
    refine (fieldOperand hs).bind ?_
    rintro _ f ⟨rfl, hf⟩
    exact pop.bind fun _ _ hv => ofMachine (shifts_storeStatic hf hv)
  | newArray => exact newArray hs
  | arrayLength =>
    refine (popArray _).bind ?_
    rintro _ r rfl
    refine heap.bind ?_
    rintro h h' ⟨hh, -⟩
    rw [hh.items, Array.size_map]
    exact push ⟨rfl, trivial⟩
  | loadItem =>
    refine popIndex.bind ?_
    rintro _ index rfl
    refine (popArray _).bind ?_
    rintro _ r rfl
    refine heap.bind ?_
    rintro h h' ⟨hh, hreadable⟩
    exact (ofExcept_value ⟨hh.item r index, fun _ hv => hreadable.types.item hv⟩).bind
      fun _ _ hv => push hv
  | storeItem => exact storeItem
  | loadToken =>
    refine (tokenOperand i).bind ?_
    rintro _ t ⟨rfl, ht⟩
    exact (ofMachine (shifts_resolveType hs ht)).discard.bind fun _ _ _ => push ⟨rfl, ht⟩
  | throw =>
    refine pop.bind ?_
    rintro v _ ⟨rfl, -⟩
    refine heap.bind ?_
    rintro h h' ⟨hh, -⟩
    rw [hh.describeException]
    exact fail _
  | rethrow => exact fail _
  | unsupported =>
    refine get.bind ?_
    rintro f _ ⟨rfl, -⟩
    exact fail _

end FrameAction.Shifts

/-- **One instruction, with one delegate more in memory.** From corresponding frames and states it
has corresponding outcomes. -/
theorem shifts_step (hs : scope.Uniform) (hc : callee.Shifts scope.symbols k) (i : Instruction) :
    FrameAction.Shifts scope.symbols k (Flow.Shifts k) (step scope callee i)
      (step scope callee i) := by
  have haction : i.opcode.action.Shifts k := i.opcode.standard_action.shifts k
  unfold step
  split
  · rename_i e he
    rw [he] at haction
    exact (FrameAction.Shifts.perform hs hc e haction).bind fun _ _ _ => .pure .next
  · rename_i t ht
    rw [ht] at haction
    exact .transfer t haction

/-! ## Rounds -/

/-- Control goes to the same offset. -/
theorem shifts_enter {symbols : SymbolTable} (offset : UInt32) (dangling : Malformation) :
    FrameAction.Shifts symbols k (fun _ _ => True) (enter offset dangling)
      (enter offset dangling) := by
  unfold enter
  refine FrameAction.Shifts.get.bind ?_
  rintro f _ ⟨rfl, -⟩
  rw [Frame.descriptor_shift]
  split
  · exact .modify fun g hg => ⟨rfl, hg.context, hg.args, hg.locals, hg.stack⟩
  · exact .malformed _

/-- Control goes on to the same instruction. -/
theorem shifts_advance {symbols : SymbolTable} (i : Instruction) :
    FrameAction.Shifts symbols k (fun _ _ => True) (advance i) (advance i) := by
  unfold advance
  split
  · exact shifts_enter _ _
  · exact .malformed _

/-- **A round is one of both sides.** -/
theorem shifts_round (hs : scope.Uniform) (hc : callee.Shifts scope.symbols k) :
    FrameAction.Shifts scope.symbols k (ShiftsOption k) (round scope callee)
      (round scope callee) := by
  unfold round
  refine FrameAction.Shifts.get.bind ?_
  rintro f _ ⟨rfl, -⟩
  rw [Frame.descriptor_shift, Frame.offset_shift]
  split
  · exact .malformed _
  · refine (shifts_step hs hc _).bind fun flow flow' hflow => ?_
    cases hflow with
    | next => exact (shifts_advance _).bind fun _ _ _ => .pure .none
    | jump target => exact (shifts_enter _ _).bind fun _ _ _ => .pure .none
    | leave hv => exact .pure (.some hv)

/-- Any number of rounds is. -/
theorem shifts_loop (hs : scope.Uniform) (hc : callee.Shifts scope.symbols k) (fuel : Nat) :
    FrameAction.Shifts scope.symbols k (Value.Shifts k) (loop scope callee fuel)
      (loop scope callee fuel) := by
  induction fuel with
  | zero => exact fun _ _ => .outOfFuel
  | succ fuel ih =>
    rw [loop_eq_round]
    refine (shifts_round hs hc).bind ?_
    rintro r _ ⟨rfl, hr⟩
    cases r with
    | none => exact ih
    | some v => exact .pure ⟨rfl, hr v rfl⟩

/-! ## Descriptors -/

/-- The locals of a descriptor start at values that correspond. -/
theorem shifts_locals (hs : scope.Uniform) {context : GenericContext}
    (hcontext : context.Over TypeName.WellFormed) {types : List TypeName}
    (htypes : ∀ t ∈ types, t.WellFormed) :
    Machine.Shifts scope.symbols k (ShiftsAll k)
      (types.mapM fun t => do scope.defaultValue (← Machine.ofExcept (context.close t)))
      (types.mapM fun t => do scope.defaultValue (← Machine.ofExcept (context.close t))) := by
  refine .mapM (fun t ht => ?_)
  refine (Machine.Shifts.ofExcept_same _).bind ?_
  rintro _ u ⟨rfl, hclose⟩
  exact shifts_defaultValue hs (hcontext.wellFormed_close (htypes t ht) hclose)

/-- Frames begin with corresponding arguments and locals. -/
theorem shifts_start (hs : scope.Uniform) {d : Descriptor} (hd : ∀ t ∈ d.body.locals, t.WellFormed)
    {context : GenericContext} (hcontext : context.Over TypeName.WellFormed)
    {args args' : List Value} (hargs : ShiftsAll k args args') :
    Machine.Shifts scope.symbols k (Frame.Shifts k) (Frame.start scope d context args)
      (Frame.start scope d context args') := by
  obtain ⟨rfl, hargs⟩ := hargs
  unfold Frame.start
  dsimp only
  rw [List.length_map]
  split
  · exact (Machine.Shifts.fail (Q := fun _ _ => True) _).bind fun _ _ _ =>
      (shifts_locals hs hcontext hd).bind fun _ _ hvs =>
        .pure ⟨by rw [hvs.1]; rfl, hcontext, hargs, hvs.2, nofun⟩
  · refine (shifts_locals hs hcontext hd).bind ?_
    rintro vs _ ⟨rfl, hvs⟩
    exact .pure ⟨rfl, hcontext, hargs, hvs, nofun⟩

/-- A descriptor is run on both sides. -/
theorem shifts_execute (hs : scope.Uniform) (hc : callee.Shifts scope.symbols k) (fuel : Nat)
    {d : Descriptor} (hd : ∀ t ∈ d.body.locals, t.WellFormed) {context : GenericContext}
    (hcontext : context.Over TypeName.WellFormed) {args args' : List Value}
    (hargs : ShiftsAll k args args') :
    Machine.Shifts scope.symbols k (Value.Shifts k) (execute scope callee fuel d context args)
      (execute scope callee fuel d context args') := by
  have hrun : FrameAction.Shifts scope.symbols k (Value.Shifts k) (runFrame scope callee fuel)
      (runFrame scope callee fuel) := by
    unfold runFrame
    refine FrameAction.Shifts.get.bind ?_
    rintro f _ ⟨rfl, -⟩
    rw [Frame.descriptor_shift]
    split
    · exact .malformed _
    · exact shifts_loop hs hc fuel
  unfold execute
  refine (shifts_start hs hd hcontext hargs).bind ?_
  rintro f _ ⟨rfl, hf⟩
  show Machine.Shifts scope.symbols k _
    (runFrame scope callee fuel f >>= fun r => pure r.1 : Machine Value)
    (runFrame scope callee fuel (f.shift k) >>= fun r => pure r.1)
  exact (hrun f hf).bind fun _ _ hr => .pure hr.1

/-- Corresponding receivers correspond when null stands for none. -/
theorem ShiftsOption.getD {receiver receiver' : Option Value}
    (h : ShiftsOption k receiver receiver') :
    (receiver.getD .null).Shifts k (receiver'.getD .null) := by
  obtain ⟨rfl, hreceiver⟩ := h
  cases receiver with
  | none => exact ⟨rfl, trivial⟩
  | some v => exact ⟨rfl, hreceiver v rfl⟩

/-- Corresponding receivers and arguments give corresponding slots. -/
theorem shiftsAll_slots (d : Descriptor) {receiver receiver' : Option Value}
    {args args' : List Value} (hreceiver : ShiftsOption k receiver receiver')
    (hargs : ShiftsAll k args args') :
    ShiftsAll k (slots d receiver args) (slots d receiver' args') := by
  unfold slots
  split
  · exact hargs
  · obtain ⟨hvalue, hover⟩ := hreceiver.getD
    exact ⟨congrArg₂ List.cons hvalue hargs.1, List.forall_mem_cons.2 ⟨hover, hargs.2⟩⟩

/-! ## Programs of the host -/

/-- Two programs of the host that make corresponding requests have corresponding outcomes. -/
theorem shifts_run (hs : scope.Uniform) (hc : callee.Shifts scope.symbols k) {p p' : Host Value}
    (hp : p.Shifts k p') :
    Machine.Shifts scope.symbols k (Value.Shifts k) (p.run scope callee) (p'.run scope callee) := by
  induction hp with
  | done h => exact .pure h
  | fail e => exact .fail e
  | read _ ih => exact .get_bind fun s s' hs' => ih s.memory s'.memory hs'.memory
  | write hm _ ih =>
    exact (Machine.Shifts.modify fun _ _ hs' => hs'.withMemory hm).bind fun _ _ _ => ih
  | call hsignature hreceiver hargs _ ih =>
    have hbound := hsignature.context_wellFormed
    refine Machine.Shifts.bind (Machine.Shifts.attempt_value ?_) ih
    refine (shifts_method hs ⟨hsignature, hbound⟩).bind ?_
    rintro _ m ⟨rfl, hm⟩
    exact hc.method hm hreceiver hargs
  | callDelegate hargs _ ih =>
    exact Machine.Shifts.bind (shifts_callDelegate hc _ hargs).attempt_value ih
  | reload c _ ih =>
    refine .get_bind fun s s' hs => ?_
    rw [hs.catalogue]
    refine (Machine.Shifts.modify fun t t' ht => ?_).bind fun _ _ _ => ih s.catalogue
    exact ⟨ht.memory, ht.statics, ht.readable, ht.sound, ht.sound', ht.methods, rfl⟩

/-! ## Methods -/

/-- The bodies of methods correspond if their callees do. -/
theorem shifts_runBody (hs : scope.Uniform) (hc : callee.Shifts scope.symbols k) (fuel : Nat) :
    Callee.Shifts scope.symbols k (runBody scope callee fuel) := by
  refine .ofMethod fun {m receiver receiver' args args'} hm hreceiver hargs => ?_
  split
  · rename_i d htarget
    exact shifts_execute hs hc fuel (hm.locals d htarget) hm.types.context
      (shiftsAll_slots d hreceiver hargs)
  · rename_i h _
    cases hcode : scope.symbols.code? h with
    | none => exact .fail _
    | some code =>
      obtain ⟨hvalue, hover⟩ := hreceiver.getD
      obtain ⟨rfl, hargs⟩ := hargs
      dsimp only
      rw [hvalue]
      exact shifts_run hs hc (hs.symbols.methods h code hcode k
        ⟨m.signature, m.context, receiver.getD .null, args⟩
        ⟨hm.types.signature, hm.types.context, hover, hargs⟩)

/-- **A delegate more is not seen.** Called with corresponding values from corresponding states, a
method has corresponding outcomes, with everything that is called from it. -/
theorem shifts_call (hs : scope.Uniform) (k fuel : Nat) :
    Callee.Shifts scope.symbols k (call scope fuel) := by
  induction fuel with
  | zero => exact .ofMethod fun _ _ _ => .outOfFuel
  | succ fuel ih => exact shifts_runBody hs ih fuel

end Hotswap
