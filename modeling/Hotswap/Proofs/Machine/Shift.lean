import Hotswap.Proofs.Machine.Contract
import Hotswap.Proofs.Machine.Lockstep
import Hotswap.Proofs.Symbols.Types

/-!
# One delegate more

Two memories are set side by side that differ by one delegate: the second one has it at an address
`k`, and the delegates from there on are moved up by one. `Value.shift` renames the references
accordingly. Everything else is the same, up to the references that values hold.

* `Memory.Shifts k m m'` is this relation of two memories. The operations of the heap keep it, and
  give values that correspond (`Value.Shifts`).
* `State.Shifts symbols k s s'` adds the static fields and what has been looked up. Of types the two
  may remember different things, as long as both have them from lookups (`Memo.Sound`): then no
  lookup of a type that can be read tells them apart.
* `Machine.Shifts` and `FrameAction.Shifts` say of two computations that they have corresponding
  outcomes from corresponding states and frames. The rules follow the monads.

A type name that cannot be read may have the text of another one, so every type in the first memory
is one that can be read.
-/

namespace Hotswap

variable {α α' β β' : Type}

/-! ## Values -/

/-- The address of a delegate after another one has been put in at an address. -/
def shiftAddress (k address : Nat) : Nat := if address < k then address else address + 1

/-- Different addresses are moved to different ones. -/
theorem shiftAddress_inj {k a b : Nat} : shiftAddress k a = shiftAddress k b ↔ a = b := by
  unfold shiftAddress
  split <;> split <;> omega

/-- A value with the references to delegates renamed. -/
def Value.shift (k : Nat) : Value → Value
  | .delegate address => .delegate (shiftAddress k address)
  | v => v

namespace Value

variable (k : Nat) (v w : Value)

/-- A reference keeps the name of its type. -/
@[simp] theorem typeName_shift : (v.shift k).typeName = v.typeName := by cases v <;> rfl

/-- A value keeps its text. -/
@[simp] theorem render_shift : (v.shift k).render = v.render := by cases v <;> rfl

/-- Null stays null, and nothing else becomes null. -/
@[simp] theorem isNull_shift : (v.shift k).isNull = v.isNull := by cases v <;> rfl

/-- References stay references. -/
@[simp] theorem isReference_shift : (v.shift k).isReference = v.isReference := by cases v <;> rfl

/-- A value keeps its integer. -/
@[simp] theorem toInt64?_shift : (v.shift k).toInt64? = v.toInt64? := by cases v <;> rfl

/-- It keeps it also where only integers count. -/
@[simp] theorem integer?_shift : (v.shift k).integer? = v.integer? := by cases v <;> rfl

/-- It keeps its floating-point number. -/
@[simp] theorem toFloat?_shift : (v.shift k).toFloat? = v.toFloat? := by cases v <;> rfl

/-- It counts as false as before. -/
@[simp] theorem isFalsy_shift : (v.shift k).isFalsy = v.isFalsy := by cases v <;> rfl

/-- Two values are the same if they still are when both are renamed. -/
@[simp] theorem isSame_shift : (v.shift k).isSame (w.shift k) = v.isSame w := by
  cases v <;> cases w <;> first
    | rfl
    | exact Bool.eq_iff_iff.2 (by simp [shift, isSame, shiftAddress_inj])

/-- Two numbers are promoted as before. -/
@[simp] theorem numPair_shift :
    NumPair.ofValues? (v.shift k) (w.shift k) = NumPair.ofValues? v w := by
  have hnum : ∀ v : Value, Num.ofValue? (v.shift k) = Num.ofValue? v := fun v => by cases v <;> rfl
  unfold NumPair.ofValues?
  rw [hnum, hnum]

/-- A fault about two values is worded as before. -/
@[simp] theorem mismatch_shift (operator : String) :
    mismatch operator (v.shift k) (w.shift k) = mismatch operator v w := by
  unfold mismatch
  rw [typeName_shift, typeName_shift]

end Value

/-- Two values that correspond. -/
def Value.Shifts (k : Nat) (v v' : Value) : Prop :=
  v' = v.shift k ∧ v.Over TypeName.WellFormed

/-- Two lists of values that correspond. -/
def ShiftsAll (k : Nat) (vs vs' : List Value) : Prop :=
  vs' = vs.map (Value.shift k) ∧ ∀ v ∈ vs, v.Over TypeName.WellFormed

/-- Two receivers that correspond. -/
def ShiftsOption (k : Nat) (v v' : Option Value) : Prop :=
  v' = v.map (Value.shift k) ∧ ∀ w ∈ v, w.Over TypeName.WellFormed

/-- Two answers that correspond: values that do, or one error. -/
def ShiftsAnswer (k : Nat) (r r' : Except Error Value) : Prop :=
  r' = r.map (Value.shift k) ∧ AnswerOver TypeName.WellFormed r

/-! ## Memory -/

/-- An object with the references renamed. -/
def Instance.shift (k : Nat) (i : Instance) : Instance :=
  { i with fields := i.fields.map (Value.shift k) }

/-- A delegate with the reference in its receiver renamed. -/
def Delegate.shift (k : Nat) (d : Delegate) : Delegate :=
  { d with receiver := d.receiver.map (Value.shift k) }

/-- Two heaps of which the second has a delegate more, at an address. -/
structure Heap.Shifts (k : Nat) (h h' : Heap) : Prop where
  /-- The objects correspond. -/
  objects : h'.objects = h.objects.map (Instance.shift k)
  /-- The arrays correspond. -/
  arrays : h'.arrays = h.arrays.map (Array.map (Value.shift k))
  /-- The address is not above those in use. -/
  bound : k ≤ h.delegates.size
  /-- There is one delegate more. -/
  size : h'.delegates.size = h.delegates.size + 1
  /-- The others correspond. -/
  delegates : ∀ address, h'.delegates[shiftAddress k address]? =
    h.delegates[address]?.map (Delegate.shift k)

/-- The locals of a method whose body is in a descriptor have types that can be read. -/
def Method.LocalsReadable (m : Method) : Prop :=
  ∀ d, m.target = .patched d → ∀ t ∈ d.body.locals, t.WellFormed

/-- Every type in a method can be read. -/
structure Method.Readable (m : Method) : Prop where
  /-- The types in its signature and its generic arguments can be read. -/
  types : m.Over TypeName.WellFormed
  /-- The types of its locals can. -/
  locals : m.LocalsReadable

/-- Every type in the heap can be read. -/
structure Heap.Readable (h : Heap) : Prop where
  /-- The types that values and methods carry can be read. -/
  types : h.Over TypeName.WellFormed
  /-- The types of locals of methods that are in delegates can. -/
  locals : ∀ d ∈ h.delegates, d.method.LocalsReadable

/-- Every type in memory can be read. -/
structure Memory.Readable (m : Memory) : Prop where
  /-- Every type in the heap can be read. -/
  heap : m.heap.Readable
  /-- Every type in the cells of the host can. -/
  cells : m.cells.Holds (Value.Over TypeName.WellFormed)

/-- Two memories of which the second has a delegate more, at an address. -/
structure Memory.Shifts (k : Nat) (m m' : Memory) : Prop where
  /-- The heaps differ by the delegate. -/
  heap : m.heap.Shifts k m'.heap
  /-- The cells of the host correspond. -/
  cells : m'.cells = m.cells.map (Value.shift k)
  /-- Every type in the first can be read. -/
  readable : m.Readable

/-! ### The heap -/

/-- Changing an item and mapping is mapping and changing the image. -/
theorem map_modify {f : α → β} {g : α → α} {g' : β → β} (h : ∀ a, f (g a) = g' (f a))
    (xs : Array α) (i : Nat) : (xs.modify i g).map f = (xs.map f).modify i g' := by
  refine Array.ext_getElem? fun j => ?_
  rw [Array.getElem?_map, Array.getElem?_modify, Array.getElem?_modify, Array.getElem?_map]
  split
  · cases xs[j]? with
    | none => rfl
    | some a => exact congrArg some (h a)
  · rfl

namespace Heap.Shifts

variable {k : Nat} {h h' : Heap} (hh : h.Shifts k h')

include hh

/-- An object has the same content, renamed. -/
theorem content (r : ObjectRef) : h'.content r = (h.content r).shift k := by
  unfold Heap.content
  rw [hh.objects, Array.getD_eq_getD_getElem?, Array.getD_eq_getD_getElem?, Array.getElem?_map]
  cases h.objects[r.address]? <;> rfl

/-- A field of an object has the same value, renamed. -/
theorem field? (r : ObjectRef) (name : String) :
    h'.field? r name = (h.field? r name).map (Value.shift k) := by
  unfold Heap.field?
  rw [hh.content]
  exact Table.get?_map _ _ _

/-- An array has the same items, renamed. -/
theorem items (r : ArrayRef) : h'.items r = (h.items r).map (Value.shift k) := by
  unfold Heap.items
  rw [hh.arrays, Array.getD_eq_getD_getElem?, Array.getD_eq_getD_getElem?, Array.getElem?_map]
  cases h.arrays[r.address]? with
  | none => exact Array.map_empty.symm
  | some items => rfl

/-- An index is in range as before. -/
theorem position? (r : ArrayRef) (index : Int64) : h'.position? r index = h.position? r index := by
  unfold Heap.position?
  rw [hh.items, Array.size_map]

/-- An item of an array is the same, renamed, and a fault stays the same. -/
theorem item (r : ArrayRef) (index : Int64) :
    h'.item r index = (h.item r index).map (Value.shift k) := by
  unfold Heap.item
  rw [hh.position?, hh.items, Array.size_map]
  split
  · rw [Array.getD_eq_getD_getElem?, Array.getD_eq_getD_getElem?, Array.getElem?_map]
    rename_i position _
    show Except.ok _ = Except.ok _
    cases (h.items r)[position]? <;> rfl
  · rfl

/-- The delegate at an address is at the address that it is moved to. -/
theorem delegate? (address : Nat) :
    h'.delegate? (shiftAddress k address) = (h.delegate? address).map (Delegate.shift k) :=
  hh.delegates address

/-- An object is made at the same address, and the heaps still correspond. -/
theorem newObject (type : TypeName) (content : Instance) :
    (h'.newObject type (content.shift k)).1 = (h.newObject type content).1 ∧
      (h.newObject type content).2.Shifts k (h'.newObject type (content.shift k)).2 := by
  refine ⟨?_, ?_, hh.arrays, hh.bound, hh.size, hh.delegates⟩
  · show (⟨h'.objects.size, type⟩ : ObjectRef) = ⟨h.objects.size, type⟩
    rw [hh.objects, Array.size_map]
  · show h'.objects.push (content.shift k) = (h.objects.push content).map (Instance.shift k)
    rw [Array.map_push, hh.objects]

/-- So is an array. -/
theorem newArray (element : TypeName) (items : Array Value) :
    (h'.newArray element (items.map (Value.shift k))).1 = (h.newArray element items).1 ∧
      (h.newArray element items).2.Shifts k
        (h'.newArray element (items.map (Value.shift k))).2 := by
  refine ⟨?_, hh.objects, ?_, hh.bound, hh.size, hh.delegates⟩
  · show (⟨h'.arrays.size, element⟩ : ArrayRef) = ⟨h.arrays.size, element⟩
    rw [hh.arrays, Array.size_map]
  · show h'.arrays.push (items.map (Value.shift k)) =
      (h.arrays.push items).map (Array.map (Value.shift k))
    rw [Array.map_push, hh.arrays]

/-- A delegate is made at the address that its own is moved to. -/
theorem newDelegate (d : Delegate) :
    (h'.newDelegate (d.shift k)).1 = shiftAddress k (h.newDelegate d).1 ∧
      (h.newDelegate d).2.Shifts k (h'.newDelegate (d.shift k)).2 := by
  have hbound := hh.bound
  have hlast : shiftAddress k h.delegates.size = h.delegates.size + 1 :=
    if_neg (Nat.not_lt.2 hbound)
  refine ⟨hh.size.trans hlast.symm, hh.objects, hh.arrays, ?_, ?_, fun address => ?_⟩
  · show k ≤ (h.delegates.push d).size
    rw [Array.size_push]
    omega
  · show (h'.delegates.push _).size = (h.delegates.push d).size + 1
    rw [Array.size_push, Array.size_push, hh.size]
  · show (h'.delegates.push (d.shift k))[shiftAddress k address]? =
      (h.delegates.push d)[address]?.map (Delegate.shift k)
    rw [Array.getElem?_push, Array.getElem?_push, hh.size, ← hlast, hh.delegates]
    by_cases heq : address = h.delegates.size
    · rw [if_pos heq, if_pos (by rw [heq])]
      rfl
    · rw [if_neg heq, if_neg (mt shiftAddress_inj.1 heq)]

/-- A field is set in both heaps. -/
theorem setField (r : ObjectRef) (name : String) (v : Value) :
    (h.setField r name v).Shifts k (h'.setField r name (v.shift k)) := by
  refine ⟨?_, hh.arrays, hh.bound, hh.size, hh.delegates⟩
  unfold Heap.setField
  dsimp only
  rw [hh.objects]
  refine (map_modify (fun i => ?_) h.objects r.address).symm
  exact congrArg (Instance.mk · i.payload) (Table.map_insert _ _ _ _)

/-- An item is set in both heaps, or neither, with the same fault. -/
theorem setItem (r : ArrayRef) (index : Int64) (v : Value) :
    (∃ g g', h.setItem r index v = .ok g ∧ h'.setItem r index (v.shift k) = .ok g' ∧
      g.Shifts k g' ∧ g.delegates = h.delegates) ∨
    ∃ e, h.setItem r index v = .error e ∧ h'.setItem r index (v.shift k) = .error e := by
  unfold Heap.setItem
  rw [hh.position?]
  cases h.position? r index with
  | none =>
    refine .inr ⟨_, rfl, ?_⟩
    rw [hh.items, Array.size_map]
  | some position =>
    refine .inl ⟨_, _, rfl, rfl, ⟨hh.objects, ?_, hh.bound, hh.size, hh.delegates⟩, rfl⟩
    dsimp only
    rw [hh.arrays]
    exact (map_modify (fun items => Array.map_setIfInBounds) h.arrays r.address).symm

end Heap.Shifts

/-! ## States and outcomes -/

/-- Two states whose memories differ by a delegate. What has been looked up of types need not be the
same, but comes from lookups in both. -/
structure State.Shifts (symbols : SymbolTable) (k : Nat) (s s' : State) : Prop where
  /-- The memories differ by the delegate. -/
  memory : s.memory.Shifts k s'.memory
  /-- The static fields correspond. -/
  statics : s'.statics = s.statics.map (Value.shift k)
  /-- Every type in the static fields of the first can be read. -/
  readable : s.statics.Holds (Value.Over TypeName.WellFormed)
  /-- What the first remembers of types is what the symbols say. -/
  sound : s.memo.Sound symbols
  /-- So is what the second remembers. -/
  sound' : s'.memo.Sound symbols
  /-- Both remember the same of methods. -/
  methods : s'.memo.methods = s.memo.methods
  /-- The catalogue in force is the same. -/
  catalogue : s'.catalogue = s.catalogue

/-- Two outcomes with results as `Q` says, or with one reason to stop, in states that correspond. -/
inductive Shifted (symbols : SymbolTable) (k : Nat) (Q : α → α' → Prop) :
    Except Stop α × State → Except Stop α' × State → Prop
  | ok {a : α} {a' : α'} {s s' : State} (ha : Q a a') (hs : s.Shifts symbols k s') :
      Shifted symbols k Q (.ok a, s) (.ok a', s')
  | stopped {stop : Stop} {s s' : State} (hs : s.Shifts symbols k s') :
      Shifted symbols k Q (.error stop, s) (.error stop, s')

/-- An action on memory does the corresponding to a corresponding memory, with results as `Q`
says. -/
def ActionShifts (k : Nat) (Q : α → α' → Prop) (action : StateM Memory α)
    (action' : StateM Memory α') : Prop :=
  ∀ m m' : Memory, m.Shifts k m' → Q (action m).1 (action' m').1 ∧
    (action m).2.Shifts k (action' m').2

/-! ## Computations of the machine -/

/-- From corresponding states the computations have corresponding outcomes. -/
def Machine.Shifts (symbols : SymbolTable) (k : Nat) (Q : α → α' → Prop) (m : Machine α)
    (m' : Machine α') : Prop :=
  ∀ s s' : State, s.Shifts symbols k s' → Shifted symbols k Q (m s) (m' s')

namespace Machine.Shifts

variable {symbols : SymbolTable} {k : Nat} {Q : α → α' → Prop} {R : β → β' → Prop}
  {m : Machine α} {m' : Machine α'}

/-- Corresponding results correspond. -/
theorem pure {a : α} {a' : α'} (h : Q a a') :
    Machine.Shifts symbols k Q (pure a : Machine α) (pure a' : Machine α') :=
  fun _ _ hs => .ok h hs

/-- An error is the same on both sides. -/
theorem fail (e : Error) :
    Machine.Shifts symbols k Q (Machine.fail e : Machine α) (Machine.fail e : Machine α') :=
  fun _ _ hs => .stopped hs

/-- Running out of fuel is the same on both sides. -/
theorem outOfFuel : Machine.Shifts symbols k Q (throw .outOfFuel : Machine α)
    (throw .outOfFuel : Machine α') :=
  fun _ _ hs => .stopped hs

/-- Corresponding computations one after another correspond. -/
theorem bind {g : α → Machine β} {g' : α' → Machine β'} (hm : Machine.Shifts symbols k Q m m')
    (hg : ∀ a a', Q a a' → Machine.Shifts symbols k R (g a) (g' a')) :
    Machine.Shifts symbols k R (m >>= g) (m' >>= g') := by
  intro s s' hs
  have hfirst := hm s s' hs
  rw [bind_apply, bind_apply]
  generalize m s = r at hfirst
  generalize m' s' = r' at hfirst
  cases hfirst with
  | ok ha hs => exact hg _ _ ha _ _ hs
  | stopped hs => exact .stopped hs

/-- What is known of the results may be forgotten in part. -/
theorem conseq {Q' : α → α' → Prop} (hm : Machine.Shifts symbols k Q m m')
    (h : ∀ a a', Q a a' → Q' a a') : Machine.Shifts symbols k Q' m m' := by
  intro s s' hs
  have hfirst := hm s s' hs
  generalize m s = r at hfirst
  generalize m' s' = r' at hfirst
  cases hfirst with
  | ok ha hs => exact .ok (h _ _ ha) hs
  | stopped hs => exact .stopped hs

/-- Computations correspond without their results. -/
theorem discard (hm : Machine.Shifts symbols k Q m m') :
    Machine.Shifts symbols k (fun _ _ => True) (discard m) (discard m') := by
  show Machine.Shifts symbols k _ (m >>= fun _ => Pure.pure ()) (m' >>= fun _ => Pure.pure ())
  exact hm.bind fun _ _ _ => pure trivial

/-- A computation that looks at the state goes on in that state. -/
theorem get_bind {g : State → Machine α} {g' : State → Machine α'}
    (hg : ∀ s s' : State, s.Shifts symbols k s' → Machine.Shifts symbols k Q (g s) (g' s')) :
    Machine.Shifts symbols k Q (get >>= g) (get >>= g') :=
  fun s s' hs => hg s s' hs s s' hs

/-- A change of the state that keeps states corresponding is one of both sides. -/
theorem modify {g g' : State → State}
    (hg : ∀ s s' : State, s.Shifts symbols k s' → (g s).Shifts symbols k (g' s')) :
    Machine.Shifts symbols k (fun _ _ => True) (modify g : Machine Unit) (modify g') :=
  fun s s' hs => .ok trivial (hg s s' hs)

/-- Corresponding answers correspond as computations. -/
theorem ofExcept_value {r r' : Except Error Value} (h : ShiftsAnswer k r r') :
    Machine.Shifts symbols k (Value.Shifts k) (Machine.ofExcept r) (Machine.ofExcept r') := by
  obtain ⟨rfl, hr⟩ := h
  cases r with
  | ok v => exact pure ⟨rfl, hr v rfl⟩
  | error e => exact fail e

/-- What does not depend on the state and on references is the same. -/
theorem ofExcept_same (r : Except Error α) :
    Machine.Shifts symbols k (fun a a' => a' = a ∧ r = .ok a) (Machine.ofExcept r)
      (Machine.ofExcept r) := by
  cases r with
  | ok a => exact pure ⟨rfl, rfl⟩
  | error e => exact fail e

/-- An operation on memory that keeps memories corresponding is one of both sides. -/
theorem onMemory {action : StateM Memory α} {action' : StateM Memory α'}
    (h : ActionShifts k Q action action') :
    Machine.Shifts symbols k Q (Machine.onMemory action) (Machine.onMemory action') := by
  intro s s' hs
  obtain ⟨hresult, hmemory⟩ := h s.memory s'.memory hs.memory
  exact .ok hresult ⟨hmemory, hs.statics, hs.readable, hs.sound, hs.sound', hs.methods,
    hs.catalogue⟩

/-- A lookup of types that has the outcome that the symbols say has it in both states. -/
theorem resolve {lookup : Resolve α} {r : Except Error α}
    (h : Resolve.Answers (Memo.Sound symbols) r lookup) :
    Machine.Shifts symbols k (fun a a' => a' = a ∧ r = .ok a) (Machine.resolve lookup)
      (Machine.resolve lookup) := by
  have hleft : ∀ s : State, s.memo.Sound symbols → Machine.resolve lookup s =
      Machine.ofExcept r { s with memo := (lookup s.memo).2 } := by
    intro s hs
    unfold Machine.resolve
    rw [Machine.get_bind, ← (h s.memo hs).1]
    rfl
  intro s s' hs
  rw [hleft s hs.sound, hleft s' hs.sound']
  obtain ⟨-, hsound, hmethods⟩ := h s.memo hs.sound
  obtain ⟨-, hsound', hmethods'⟩ := h s'.memo hs.sound'
  refine ofExcept_same r _ _ ⟨hs.memory, hs.statics, hs.readable, hsound, hsound', ?_, hs.catalogue⟩
  exact hmethods'.trans (hs.methods.trans hmethods.symm)

/-- An attempt corresponds if what is attempted does. -/
theorem attempt {R : Except Error α → Except Error α' → Prop} (hm : Machine.Shifts symbols k Q m m')
    (hok : ∀ a a', Q a a' → R (.ok a) (.ok a')) (herror : ∀ e, R (.error e) (.error e)) :
    Machine.Shifts symbols k R (attempt m) (attempt m') := by
  intro s s' hs
  have hfirst := hm s s' hs
  rw [attempt_apply, attempt_apply]
  generalize m s = r at hfirst
  generalize m' s' = r' at hfirst
  cases hfirst with
  | ok ha hs => exact .ok (hok _ _ ha) hs
  | @stopped stop s s' hs =>
    cases stop with
    | failed e => exact .ok (herror e) hs
    | outOfFuel => exact .stopped hs

/-- So does the attempt to get a value. -/
theorem attempt_value {m m' : Machine Value} (hm : Machine.Shifts symbols k (Value.Shifts k) m m') :
    Machine.Shifts symbols k (ShiftsAnswer k) (Machine.attempt m) (Machine.attempt m') := by
  refine hm.attempt ?_ fun e => ⟨rfl, answerOver_error e⟩
  rintro v _ ⟨rfl, hv⟩
  exact ⟨rfl, answerOver_ok hv⟩

/-- A value for each of several others, one after another. -/
theorem mapM {g g' : β → Machine Value} {l : List β}
    (hg : ∀ b ∈ l, Machine.Shifts symbols k (Value.Shifts k) (g b) (g' b)) :
    Machine.Shifts symbols k (ShiftsAll k) (l.mapM g) (l.mapM g') := by
  induction l with
  | nil =>
    rw [List.mapM_nil, List.mapM_nil]
    exact .pure ⟨rfl, fun _ hv => absurd hv List.not_mem_nil⟩
  | cons b rest ih =>
    rw [List.mapM_cons, List.mapM_cons]
    obtain ⟨hb, hrest⟩ := List.forall_mem_cons.1 hg
    refine hb.bind ?_
    rintro v _ ⟨rfl, hv⟩
    refine (ih hrest).bind ?_
    rintro vs _ ⟨rfl, hvs⟩
    exact .pure ⟨rfl, List.forall_mem_cons.2 ⟨hv, hvs⟩⟩

end Machine.Shifts

/-! ## Computations in a frame -/

/-- A frame with the references in its values renamed. -/
def Frame.shift (k : Nat) (f : Frame) : Frame :=
  { f with
    args := f.args.map (Value.shift k)
    locals := f.locals.map (Value.shift k)
    stack := f.stack.map (Value.shift k) }

/-- A frame keeps its descriptor. -/
@[simp] theorem Frame.descriptor_shift (k : Nat) (f : Frame) :
    (f.shift k).descriptor = f.descriptor := rfl

/-- It keeps its place. -/
@[simp] theorem Frame.offset_shift (k : Nat) (f : Frame) : (f.shift k).offset = f.offset := rfl

/-- It remembers what it did about a target. -/
@[simp] theorem Frame.pendingTarget_shift (k : Nat) (f : Frame) :
    (f.shift k).pendingTarget = f.pendingTarget := rfl

/-- Two frames that correspond. -/
def Frame.Shifts (k : Nat) (f f' : Frame) : Prop := f' = f.shift k ∧ f.Over TypeName.WellFormed

/-- From corresponding frames the computations have corresponding outcomes, with frames that
correspond. -/
def FrameAction.Shifts (symbols : SymbolTable) (k : Nat) (Q : α → α' → Prop) (x : FrameAction α)
    (x' : FrameAction α') : Prop :=
  ∀ f : Frame, f.Over TypeName.WellFormed →
    Machine.Shifts symbols k (fun r r' => Q r.1 r'.1 ∧ r.2.Shifts k r'.2) (x f) (x' (f.shift k))

namespace FrameAction.Shifts

variable {symbols : SymbolTable} {k : Nat} {Q : α → α' → Prop} {R : β → β' → Prop}
  {x : FrameAction α} {x' : FrameAction α'}

/-- Corresponding results correspond in a frame. -/
theorem pure {a : α} {a' : α'} (h : Q a a') :
    FrameAction.Shifts symbols k Q (pure a : FrameAction α) (pure a' : FrameAction α') :=
  fun _ hf => .pure ⟨h, rfl, hf⟩

/-- Corresponding computations in a frame one after another correspond. -/
theorem bind {g : α → FrameAction β} {g' : α' → FrameAction β'}
    (hx : FrameAction.Shifts symbols k Q x x')
    (hg : ∀ a a', Q a a' → FrameAction.Shifts symbols k R (g a) (g' a')) :
    FrameAction.Shifts symbols k R (x >>= g) (x' >>= g') := by
  intro f hf
  show Machine.Shifts symbols k _ (x f >>= fun r => g r.1 r.2 : Machine (β × Frame))
    (x' (f.shift k) >>= fun r => g' r.1 r.2)
  refine (hx f hf).bind ?_
  rintro ⟨a, g⟩ ⟨a', _⟩ ⟨ha, rfl, hframe⟩
  exact hg a a' ha g hframe

/-- What is known of their results may be forgotten in part. -/
theorem conseq {Q' : α → α' → Prop} (hx : FrameAction.Shifts symbols k Q x x')
    (h : ∀ a a', Q a a' → Q' a a') : FrameAction.Shifts symbols k Q' x x' :=
  fun f hf => (hx f hf).conseq fun _ _ hr => ⟨h _ _ hr.1, hr.2⟩

/-- Results that are changed alike afterwards correspond. -/
theorem map {γ γ' : Type} {S : γ → γ' → Prop} {g : α → γ} {g' : α' → γ'}
    (hx : FrameAction.Shifts symbols k Q x x') (hg : ∀ a a', Q a a' → S (g a) (g' a')) :
    FrameAction.Shifts symbols k S (g <$> x) (g' <$> x') := by
  rw [map_eq_pure_bind, map_eq_pure_bind]
  exact hx.bind fun a a' ha => .pure (hg a a' ha)

/-- Computations in a frame correspond without their results. -/
theorem discard (hx : FrameAction.Shifts symbols k Q x x') :
    FrameAction.Shifts symbols k (fun _ _ => True) (discard x) (discard x') :=
  hx.map fun _ _ _ => trivial

/-- The two frames correspond. -/
theorem get : FrameAction.Shifts symbols k (Frame.Shifts k) get get :=
  fun _ hf => .pure ⟨⟨rfl, hf⟩, rfl, hf⟩

/-- A change of the frame that keeps frames corresponding is one of both sides. -/
theorem modify {g g' : Frame → Frame}
    (hg : ∀ f : Frame, f.Over TypeName.WellFormed → (g f).Shifts k (g' (f.shift k))) :
    FrameAction.Shifts symbols k (fun _ _ => True) (modify g) (modify g') :=
  fun f hf => Machine.Shifts.pure ⟨trivial, hg f hf⟩

/-- Corresponding computations of the machine correspond in a frame. -/
theorem ofMachine {m : Machine α} {m' : Machine α'} (h : Machine.Shifts symbols k Q m m') :
    FrameAction.Shifts symbols k Q (ofMachine m) (ofMachine m') :=
  fun _ hf => h.bind fun _ _ ha => .pure ⟨ha, rfl, hf⟩

/-- An error is the same on both sides. -/
theorem fail (e : Error) : FrameAction.Shifts symbols k Q (fail e : FrameAction α)
    (fail e : FrameAction α') := ofMachine (.fail e)

/-- Corresponding answers correspond as computations in a frame. -/
theorem ofExcept_value {r r' : Except Error Value} (h : ShiftsAnswer k r r') :
    FrameAction.Shifts symbols k (Value.Shifts k) (ofExcept r) (ofExcept r') :=
  ofMachine (.ofExcept_value h)

/-- An answer that is the same on both sides stays so. -/
theorem ofExcept_same (r : Except Error α) :
    FrameAction.Shifts symbols k (fun a a' => a' = a ∧ r = .ok a) (ofExcept r) (ofExcept r) :=
  ofMachine (.ofExcept_same r)

/-- A malformed descriptor is the same fault on both sides. -/
theorem malformed (reason : Malformation) :
    FrameAction.Shifts symbols k Q (malformed reason : FrameAction α)
      (malformed reason : FrameAction α') := by
  unfold FrameAction.malformed
  refine get.bind ?_
  rintro f _ ⟨rfl, -⟩
  exact fail _

end FrameAction.Shifts

end Hotswap
