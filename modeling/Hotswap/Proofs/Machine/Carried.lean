import Hotswap.Proofs.Method.Routes
import Hotswap.Proofs.Table
import Mathlib

/-!
# Types that values carry

Objects and arrays carry the closed type they were made with, a handle is a type, and a delegate
carries the signature and the generic arguments of its method. For a family `P` of types, `Over P`
says of a value, of memory, of a state or of a frame that every type in it is in the family.

* The first half defines `Over P`, up to the symbols of a host. Code of the host is over `P` if it
  stays within `P` as long as what it is given does: it calls back with signatures over `P`, and
  what it writes and gives back is over `P` (`Host.Over`). The same goes for the fields of the host
  and for the values that its types start as.
* `IsFamily P` is what closing a name needs: replacing placeholders by types of the family gives a
  type of the family.
* The second half says that the operations of the heap and the lookups of types stay over `P`. Both
  are cases of more general facts, about whatever holds of the values in a heap (`Heap.Holds`) and
  of the types that are remembered (`Resolve.Keeps`).
-/

namespace Hotswap

variable {α β : Type}

/-! ## Tables -/

/-- Every value in the table is as `Q` says. -/
def Table.Holds {κ : Type} [Ord κ] (Q : α → Prop) (t : Table κ α) : Prop := ∀ e ∈ t.entries, Q e.2

namespace Table.Holds

variable {κ : Type} [Ord κ] [Std.LawfulEqOrd κ] {Q : α → Prop} {t : Table κ α}

/-- Anything holds of all entries of an empty table. -/
theorem empty {κ : Type} [Ord κ] : Table.Holds Q (∅ : Table κ α) :=
  fun _ he => absurd he List.not_mem_nil

/-- What holds of all entries holds of one that is found. -/
theorem get? {k : κ} {v : α} (h : t.Holds Q) (hv : t.get? k = some v) : Q v :=
  h _ (get?_eq_some_iff.1 hv)

/-- It holds with another entry of which it does. -/
theorem insert [Std.TransOrd κ] {k : κ} {v : α} (h : t.Holds Q) (hv : Q v) :
    (t.insert k v).Holds Q := by
  intro e he
  rcases mem_place he with rfl | he
  · exact hv
  · exact h e he

end Table.Holds

/-! ### Symbols

What holds of everything that the modules have registered holds of what is found. -/

namespace SymbolTable

variable {symbols : SymbolTable}

/-- What holds of all types of the modules holds of one that is found. -/
theorem holds_findType? {Q : TypeDefinition → Prop} (h : ∀ m ∈ symbols.modules, m.types.Holds Q)
    {name : String} {d : TypeDefinition} (hd : symbols.findType? name = some d) : Q d := by
  obtain ⟨m, hm, hd⟩ := List.exists_of_findSome?_eq_some hd
  exact (h m hm).get? hd

/-- What holds of all their fields holds of one that is found. -/
theorem holds_findField? {Q : Accessor → Prop} (h : ∀ m ∈ symbols.modules, m.fields.Holds Q)
    {key : String} {a : Accessor} (ha : symbols.findField? key = some a) : Q a := by
  obtain ⟨m, hm, ha⟩ := List.exists_of_findSome?_eq_some ha
  exact (h m hm).get? ha

/-- What holds of all code in them holds of the code of a method. -/
theorem holds_code? {Q : HostCode → Prop}
    (h : ∀ m ∈ symbols.modules, m.methods.Holds fun d => Q d.code) {method : HostMethod}
    {code : HostCode} (hcode : symbols.code? method = some code) : Q code := by
  unfold code? at hcode
  obtain ⟨m, hm, hcode⟩ := Option.bind_eq_some_iff.1 hcode
  obtain ⟨d, hd, hcode⟩ := Option.bind_eq_some_iff.1 hcode
  cases hcode
  exact (h m (List.mem_of_getElem? hm)).get? hd

end SymbolTable

/-! ## Values and memory -/

section definitions

variable (P : TypeName → Prop)

/-- The type that a value carries, if it carries one, is in the family. -/
def Value.Over : Value → Prop
  | .object r => P r.type
  | .array r => P r.element
  | .type t => P t
  | _ => True

/-- Every type in a signature is in the family. -/
structure Signature.Over (s : Signature) : Prop where
  /-- The declaring type is in the family. -/
  declaringType : P s.declaringType
  /-- The generic arguments are. -/
  genericArgs : ∀ t ∈ s.genericArgs, P t
  /-- The parameters are. -/
  parameters : ∀ t ∈ s.parameters, P t

/-- Every generic argument is in the family. -/
structure GenericContext.Over (cx : GenericContext) : Prop where
  /-- The arguments of the declaring type are in the family. -/
  typeArgs : ∀ t ∈ cx.typeArgs, P t
  /-- The arguments of the method are. -/
  methodArgs : ∀ t ∈ cx.methodArgs, P t

/-- The signature and the generic arguments of a bound method are over the family. The open
definition is written with placeholders. -/
structure BoundMethod.Over (b : BoundMethod) : Prop where
  /-- The signature is over the family. -/
  signature : b.signature.Over P
  /-- The generic arguments are. -/
  context : b.context.Over P

/-- The signature and the generic arguments of a method are over the family. The body need not be:
it is written with placeholders. -/
structure Method.Over (m : Method) : Prop where
  /-- The signature is over the family. -/
  signature : m.signature.Over P
  /-- The generic arguments are. -/
  context : m.context.Over P

/-- The method of a delegate and its receiver are over the family. -/
structure Delegate.Over (d : Delegate) : Prop where
  /-- The method is over the family. -/
  method : d.method.Over P
  /-- The receiver is, if there is one. -/
  receiver : ∀ v ∈ d.receiver, v.Over P

/-- Everything in the heap is over the family. -/
structure Heap.Over (h : Heap) : Prop where
  /-- The fields of the objects are over the family. -/
  objects : ∀ i ∈ h.objects, i.fields.Holds (Value.Over P)
  /-- The items of the arrays are. -/
  arrays : ∀ items ∈ h.arrays, ∀ v ∈ items, v.Over P
  /-- The delegates are. -/
  delegates : ∀ d ∈ h.delegates, d.Over P

/-- The heap and the cells of the host are over the family. -/
structure Memory.Over (m : Memory) : Prop where
  /-- The heap is over the family. -/
  heap : m.heap.Over P
  /-- The cells are. -/
  cells : m.cells.Holds (Value.Over P)

/-- An action on memory that keeps memory over the family, with results as `Q` says. -/
def KeepsMemory (Q : α → Prop) (action : StateM Memory α) : Prop :=
  ∀ m : Memory, m.Over P → Q (action m).1 ∧ (action m).2.Over P

/-! ## The host -/

/-- A type whose values start over the family. -/
def TypeDefinition.Over (d : TypeDefinition) : Prop :=
  ∀ initial, d.initial = some initial → KeepsMemory P (Value.Over P) initial

/-- A field of the host that stays over the family. -/
structure Accessor.Over (a : Accessor) : Prop where
  /-- What is read is over the family. -/
  get : ∀ target : Value, target.Over P →
    KeepsMemory P (fun r => ∀ v, r = .ok v → v.Over P) (a.get target)
  /-- Writing stays over the family. -/
  set : ∀ write, a.set? = some write → ∀ target v : Value, target.Over P → v.Over P →
    KeepsMemory P (fun _ => True) (write target v)

/-- The answer to a request is over the family, unless it is an error. -/
def AnswerOver (r : Except Error Value) : Prop := ∀ v, r = .ok v → v.Over P

/-- A program of the host that stays over the family as long as memory and the answers that it gets
do. -/
def Host.Over : Host Value → Prop
  | .done v => v.Over P
  | .fail _ => True
  | .read next => ∀ m : Memory, m.Over P → (next m).Over
  | .write m next => m.Over P ∧ next.Over
  | .call s receiver args next =>
    s.Over P ∧ (∀ v ∈ receiver, v.Over P) ∧ (∀ v ∈ args, v.Over P) ∧
      ∀ r, AnswerOver P r → (next r).Over
  | .callDelegate _ args next =>
    (∀ v ∈ args, v.Over P) ∧ ∀ r, AnswerOver P r → (next r).Over
  | .reload _ next => ∀ previous, (next previous).Over

/-- What a host method is called with is over the family. -/
structure HostCall.Over (c : HostCall) : Prop where
  /-- The signature is over the family. -/
  signature : c.signature.Over P
  /-- The generic arguments are. -/
  context : c.context.Over P
  /-- The receiver is. -/
  receiver : c.receiver.Over P
  /-- The arguments are. -/
  args : ∀ v ∈ c.args, v.Over P

/-- Code of the host that stays over the family. -/
def HostCode.Over (code : HostCode) : Prop := ∀ c : HostCall, c.Over P → (code c).Over P

/-- What the host has registered stays over the family. -/
structure SymbolTable.Over (symbols : SymbolTable) : Prop where
  /-- The values of its types start over the family. -/
  types : ∀ name d, symbols.findType? name = some d → d.Over P
  /-- Its fields stay over the family. -/
  fields : ∀ key a, symbols.findField? key = some a → a.Over P
  /-- Its methods stay over the family. -/
  methods : ∀ h code, symbols.code? h = some code → HostCode.Over P code

/-! ## States and frames -/

/-- A type that has been looked up is in the family, and its values start over it. -/
structure TypeHandle.Over (h : TypeHandle) : Prop where
  /-- The type is in the family. -/
  name : P h.name
  /-- Its values start over the family. -/
  definition : ∀ d ∈ h.definition, d.Over P

/-- Memory, the static fields and the types that have been looked up are over the family. The
catalogue in force is not asked: its descriptors are written with placeholders. -/
structure State.Over (s : State) : Prop where
  /-- Memory is over the family. -/
  memory : s.memory.Over P
  /-- The static fields are. -/
  statics : s.statics.Holds (Value.Over P)
  /-- The types that have been looked up are. -/
  memo : s.memo.types.Holds (TypeHandle.Over P)

/-- The generic arguments and the values of a frame are over the family. -/
structure Frame.Over (f : Frame) : Prop where
  /-- The generic arguments are over the family. -/
  context : f.context.Over P
  /-- The arguments are. -/
  args : ∀ v ∈ f.args, v.Over P
  /-- The locals are. -/
  locals : ∀ v ∈ f.locals, v.Over P
  /-- The operands are. -/
  stack : ∀ v ∈ f.stack, v.Over P

/-- A family of types that closing a name stays in. -/
structure IsFamily : Prop where
  /-- Placeholders that are replaced by types of the family give a type of the family. -/
  substitute : ∀ {typeArgs methodArgs t u}, (∀ a ∈ typeArgs, P a) → (∀ a ∈ methodArgs, P a) →
    TypeName.substitute typeArgs methodArgs t = .ok u → P u
  /-- The arguments of a type of the family are in it. -/
  args : ∀ {t : TypeName}, P t → ∀ a ∈ t.args, P a
  /-- What an array, a reference or a pointer of the family is over is in it. -/
  element : ∀ {t suffix}, P (.suffixed t suffix) → P t

end definitions

variable {P : TypeName → Prop}

/-! ## Empty states -/

/-- A state in which nothing has been run is over every family. -/
theorem State.over_empty (c : Catalogue) : State.Over P { catalogue := c } where
  memory := {
    heap := {
      objects := fun _ hi => absurd hi (Array.not_mem_empty _)
      arrays := fun _ hi => absurd hi (Array.not_mem_empty _)
      delegates := fun _ hd => absurd hd (Array.not_mem_empty _) }
    cells := .empty }
  statics := .empty
  memo := .empty

/-! ## The heap

What holds of every value in the heap holds of what is read from it, and still holds after a value
of which it holds has been written. -/

/-- Every value in the heap is as `Q` says. -/
structure Heap.Holds (Q : Value → Prop) (h : Heap) : Prop where
  /-- The fields of the objects are. -/
  objects : ∀ i ∈ h.objects, i.fields.Holds Q
  /-- The items of the arrays are. -/
  arrays : ∀ items ∈ h.arrays, ∀ v ∈ items, Q v
  /-- The receivers of the delegates are. -/
  receivers : ∀ d ∈ h.delegates, ∀ v ∈ d.receiver, Q v

/-- Setting an item leaves the delegates alone. -/
theorem Heap.delegates_setItem {h h' : Heap} {r : ArrayRef} {index : Int64} {v : Value}
    (hset : h.setItem r index v = .ok h') : h'.delegates = h.delegates := by
  unfold Heap.setItem at hset
  split at hset
  · cases hset
    rfl
  · cases hset

namespace Heap.Holds

variable {Q : Value → Prop} {h : Heap}

/-- Anything holds of all values of an empty heap. -/
theorem empty : Heap.Holds Q {} where
  objects _ hi := absurd hi (Array.not_mem_empty _)
  arrays _ hi := absurd hi (Array.not_mem_empty _)
  receivers _ hd := absurd hd (Array.not_mem_empty _)

/-- It holds with an object whose fields have it. -/
theorem newObject (hh : h.Holds Q) (type : TypeName) {content : Instance}
    (hcontent : content.fields.Holds Q) : (h.newObject type content).2.Holds Q where
  objects i hi := by
    rcases Array.mem_push.1 hi with hi | rfl
    · exact hh.objects i hi
    · exact hcontent
  arrays := hh.arrays
  receivers := hh.receivers

/-- It holds with an array whose items have it. -/
theorem newArray (hh : h.Holds Q) (element : TypeName) {items : Array Value}
    (hitems : ∀ v ∈ items, Q v) : (h.newArray element items).2.Holds Q where
  objects := hh.objects
  arrays items' hi := by
    rcases Array.mem_push.1 hi with hi | rfl
    · exact hh.arrays items' hi
    · exact hitems
  receivers := hh.receivers

/-- It holds with a delegate whose receiver has it. -/
theorem newDelegate (hh : h.Holds Q) {d : Delegate} (hd : ∀ v ∈ d.receiver, Q v) :
    (h.newDelegate d).2.Holds Q where
  objects := hh.objects
  arrays := hh.arrays
  receivers d' hd' := by
    rcases Array.mem_push.1 hd' with hd' | rfl
    · exact hh.receivers d' hd'
    · exact hd

/-- What holds of all values holds of a field. -/
theorem field? (hh : h.Holds Q) {r : ObjectRef} {name : String} {v : Value}
    (hv : h.field? r name = some v) : Q v := by
  unfold Heap.field? content at hv
  rw [Array.getD_eq_getD_getElem?] at hv
  cases hobject : h.objects[r.address]? with
  | none =>
    rw [hobject] at hv
    cases hv
  | some i =>
    rw [hobject] at hv
    exact (hh.objects i (Array.mem_of_getElem? hobject)).get? hv

/-- A field may be set to a value of which it holds. -/
theorem setField (hh : h.Holds Q) (r : ObjectRef) (name : String) {v : Value} (hv : Q v) :
    (h.setField r name v).Holds Q where
  objects i hi := by
    obtain ⟨address, hi⟩ := Array.mem_iff_getElem?.1 hi
    simp only [Heap.setField, Array.getElem?_modify] at hi
    split at hi
    · obtain ⟨i', hi', rfl⟩ := Option.map_eq_some_iff.1 hi
      exact (hh.objects i' (Array.mem_of_getElem? hi')).insert hv
    · exact hh.objects i (Array.mem_of_getElem? hi)
  arrays := hh.arrays
  receivers := hh.receivers

/-- What holds of all values holds of the items of an array. -/
theorem items (hh : h.Holds Q) (r : ArrayRef) : ∀ v ∈ h.items r, Q v := by
  intro v hv
  unfold Heap.items at hv
  rw [Array.getD_eq_getD_getElem?] at hv
  cases harray : h.arrays[r.address]? with
  | none =>
    rw [harray] at hv
    exact absurd hv (Array.not_mem_empty v)
  | some items =>
    rw [harray] at hv
    exact hh.arrays items (Array.mem_of_getElem? harray) v hv

/-- It holds of an item that is read; null stands for one that is missing. -/
theorem item (hh : h.Holds Q) (hnull : Q .null) {r : ArrayRef} {index : Int64} {v : Value}
    (hv : h.item r index = .ok v) : Q v := by
  unfold Heap.item at hv
  split at hv
  · rename_i position _
    cases hv
    rw [Array.getD_eq_getD_getElem?]
    cases hitem : (h.items r)[position]? with
    | none => exact hnull
    | some v => exact hh.items r v (Array.mem_of_getElem? hitem)
  · cases hv

/-- An item may be set to a value of which it holds. -/
theorem setItem (hh : h.Holds Q) {r : ArrayRef} {index : Int64} {v : Value} {h' : Heap}
    (hv : Q v) (hset : h.setItem r index v = .ok h') : h'.Holds Q := by
  unfold Heap.setItem at hset
  split at hset
  · rename_i position _
    cases hset
    refine ⟨hh.objects, fun items hitems w hw => ?_, hh.receivers⟩
    obtain ⟨address, hitems⟩ := Array.mem_iff_getElem?.1 hitems
    simp only [Array.getElem?_modify] at hitems
    split at hitems
    · obtain ⟨items', hitems', rfl⟩ := Option.map_eq_some_iff.1 hitems
      rcases Array.mem_or_eq_of_mem_setIfInBounds hw with hw | rfl
      · exact hh.arrays items' (Array.mem_of_getElem? hitems') w hw
      · exact hv
    · exact hh.arrays items (Array.mem_of_getElem? hitems) w hw
  · cases hset

end Heap.Holds

namespace Heap.Over

variable {h : Heap}

/-- The values of a heap over a family are over it. -/
theorem holds (hh : h.Over P) : h.Holds (Value.Over P) :=
  ⟨hh.objects, hh.arrays, fun d hd => (hh.delegates d hd).receiver⟩

/-- A heap is over a family if its values and the methods of its delegates are. -/
theorem of_holds (hh : h.Holds (Value.Over P)) (hm : ∀ d ∈ h.delegates, d.method.Over P) :
    h.Over P :=
  ⟨hh.objects, hh.arrays, fun d hd => ⟨hm d hd, hh.receivers d hd⟩⟩

/-- So are the methods of its delegates. -/
theorem methods (hh : h.Over P) : ∀ d ∈ h.delegates, d.method.Over P :=
  fun d hd => (hh.delegates d hd).method

/-- A heap over a family stays so with an object of such fields. -/
theorem newObject (hh : h.Over P) (type : TypeName) {content : Instance}
    (hcontent : content.fields.Holds (Value.Over P)) : (h.newObject type content).2.Over P :=
  .of_holds (hh.holds.newObject type hcontent) hh.methods

/-- It stays so with an array of such items. -/
theorem newArray (hh : h.Over P) (element : TypeName) {items : Array Value}
    (hitems : ∀ v ∈ items, v.Over P) : (h.newArray element items).2.Over P :=
  .of_holds (hh.holds.newArray element hitems) hh.methods

/-- It stays so with a delegate over the family. -/
theorem newDelegate (hh : h.Over P) {d : Delegate} (hd : d.Over P) :
    (h.newDelegate d).2.Over P := by
  refine .of_holds (hh.holds.newDelegate hd.receiver) fun d' hd' => ?_
  rcases Array.mem_push.1 hd' with hd' | rfl
  · exact hh.methods d' hd'
  · exact hd.method

/-- A field that is read is over the family. -/
theorem field? (hh : h.Over P) {r : ObjectRef} {name : String} {v : Value}
    (hv : h.field? r name = some v) : v.Over P := hh.holds.field? hv

/-- A field may be set to a value over the family. -/
theorem setField (hh : h.Over P) (r : ObjectRef) (name : String) {v : Value} (hv : v.Over P) :
    (h.setField r name v).Over P :=
  .of_holds (hh.holds.setField r name hv) hh.methods

/-- An item that is read is over the family. -/
theorem item (hh : h.Over P) {r : ArrayRef} {index : Int64} {v : Value}
    (hv : h.item r index = .ok v) : v.Over P := hh.holds.item trivial hv

/-- An item may be set to a value over the family. -/
theorem setItem (hh : h.Over P) {r : ArrayRef} {index : Int64} {v : Value} {h' : Heap}
    (hv : v.Over P) (hset : h.setItem r index v = .ok h') : h'.Over P :=
  .of_holds (hh.holds.setItem hv hset) (delegates_setItem hset ▸ hh.methods)

end Heap.Over

/-- An object of a type of the family may be made. -/
theorem keepsMemory_newObject {type : TypeName} (htype : P type) :
    KeepsMemory P (Value.Over P) fun m => m.newObject type :=
  fun _ hm => ⟨htype, hm.heap.newObject type .empty, hm.cells⟩

/-- The default of a type over the family may be made. -/
theorem TypeHandle.Over.keepsMemory {handle : TypeHandle} (h : handle.Over P) :
    KeepsMemory P (Value.Over P) handle.defaultValue := by
  have hnull : KeepsMemory P (Value.Over P) (pure .null : StateM Memory Value) :=
    fun _ hm => ⟨trivial, hm⟩
  unfold TypeHandle.defaultValue
  split
  · rename_i d hd
    unfold TypeDefinition.defaultValue
    split
    · rename_i initial _ hinitial
      exact h.definition d hd initial hinitial
    · exact keepsMemory_newObject h.name
    · exact hnull
  · exact hnull

/-! ## Closing names -/

/-- The generic arguments that a signature over the family gives to its body are over it. -/
theorem Signature.Over.context {s : Signature} (hP : IsFamily P) (h : s.Over P) :
    (GenericContext.ofSignature s).Over P :=
  ⟨hP.args h.declaringType, h.genericArgs⟩

/-- Types of the family are put for the placeholders of several types, and the results are in it. -/
theorem IsFamily.substituteAll (hP : IsFamily P) {typeArgs methodArgs ts us : List TypeName}
    (htype : ∀ a ∈ typeArgs, P a) (hmethod : ∀ a ∈ methodArgs, P a)
    (h : TypeName.substituteAll typeArgs methodArgs ts = .ok us) : ∀ u ∈ us, P u := by
  induction ts generalizing us with
  | nil =>
    cases h
    exact fun _ hu => absurd hu List.not_mem_nil
  | cons t rest ih =>
    obtain ⟨u, us', hu, hrest, rfl⟩ := TypeName.substituteAll_cons h
    intro v hv
    rcases List.mem_cons.1 hv with rfl | hv
    · exact hP.substitute htype hmethod hu
    · exact ih hrest v hv

/-- A type that is closed with arguments of the family is in it. -/
theorem GenericContext.Over.close {cx : GenericContext} (hP : IsFamily P) (h : cx.Over P)
    {t u : TypeName} (hu : cx.close t = .ok u) : P u :=
  hP.substitute h.typeArgs h.methodArgs (mapError_eq_ok.1 hu)

/-- A reference that is bound where the generic arguments are over the family has its signature and
its own arguments over it. -/
theorem BoundMethod.over_of_ofRef {m : MethodRef} {caller : GenericContext} {b : BoundMethod}
    (hP : IsFamily P) (h : caller.Over P) (hb : ofRef m caller = .ok b) : b.Over P := by
  obtain ⟨-, hcontext, -, hdeclaring, hgeneric, hparameters⟩ := ofRef_eq_ok hb
  have htype : P b.signature.declaringType := hP.substitute h.typeArgs h.methodArgs hdeclaring
  have hargs := hP.substituteAll h.typeArgs h.methodArgs hgeneric
  have hsignature : b.signature.Over P :=
    ⟨htype, hargs, hP.substituteAll (hP.args htype) hargs hparameters⟩
  refine ⟨hsignature, ?_⟩
  rw [hcontext]
  exact hsignature.context hP

/-! ## Lookups

What holds of every type that is remembered, and of every type that the symbols would give, holds of
every type that is looked up. -/

/-- A lookup that keeps the types that are remembered as `H` says, with results as `Q` says. -/
def Resolve.Keeps (H : TypeHandle → Prop) (Q : α → Prop) (lookup : Resolve α) : Prop :=
  ∀ memo : Memo, memo.types.Holds H →
    (∀ a, (lookup memo).1 = .ok a → Q a) ∧ (lookup memo).2.types.Holds H

namespace Resolve.Keeps

variable {H : TypeHandle → Prop} {Q : α → Prop} {R : β → Prop}

/-- A lookup may give what it has. -/
theorem pure {a : α} (h : Q a) : Resolve.Keeps H Q (pure a) :=
  fun _ hmemo => ⟨fun _ ha => Except.ok.inj ha ▸ h, hmemo⟩

/-- What is known of its result may be forgotten in part. -/
theorem conseq {Q' : α → Prop} {x : Resolve α} (hx : x.Keeps H Q) (h : ∀ a, Q a → Q' a) :
    x.Keeps H Q' :=
  fun memo hmemo => ⟨fun a ha => h a ((hx memo hmemo).1 a ha), (hx memo hmemo).2⟩

/-- A lookup may fail. -/
theorem throw (e : Error) : Resolve.Keeps H Q (throw e : Resolve α) :=
  fun _ hmemo => ⟨nofun, hmemo⟩

/-- What is remembered is as the invariant says. -/
theorem get : Resolve.Keeps H (fun memo => memo.types.Holds H) get :=
  fun _ hmemo => ⟨fun _ ha => Except.ok.inj ha ▸ hmemo, hmemo⟩

/-- Two lookups may follow one another. -/
theorem bind {x : Resolve α} {k : α → Resolve β} (hx : x.Keeps H Q)
    (hk : ∀ a, Q a → (k a).Keeps H R) : Resolve.Keeps H R (x >>= k) := by
  intro memo hmemo
  obtain ⟨hresult, hkeeps⟩ := hx memo hmemo
  show (∀ b, ((ExceptT.bind x k) memo).1 = .ok b → R b) ∧
    ((ExceptT.bind x k) memo).2.types.Holds H
  simp only [ExceptT.bind, ExceptT.mk, Bind.bind, StateT.bind]
  rcases hxm : x memo with ⟨e | a, memo'⟩ <;> rw [hxm] at hresult hkeeps
  · exact ⟨nofun, hkeeps⟩
  · exact hk a (hresult a rfl) memo' hkeeps

/-- A lookup may be made without looking at its result. -/
theorem discard {x : Resolve α} (hx : x.Keeps H Q) :
    Resolve.Keeps H (fun _ => True) (discard x) := by
  show Resolve.Keeps H (fun _ => True) (x >>= fun _ => Pure.pure ())
  exact hx.bind fun _ _ => pure trivial

/-- A result that is there already may be given. -/
theorem ofExcept {r : Except Error α} (h : ∀ a, r = .ok a → Q a) :
    Resolve.Keeps H Q (liftM r : Resolve α) := by
  intro memo hmemo
  cases r with
  | ok a => exact ⟨fun b hb => h b (Except.ok.inj hb ▸ rfl), hmemo⟩
  | error e => exact ⟨nofun, hmemo⟩

/-- A lookup may be tried, and another one made where it fails. -/
theorem tryCatch {x : Resolve α} {handle : Error → Resolve α} (hx : x.Keeps H Q)
    (hh : ∀ e, (handle e).Keeps H Q) : Resolve.Keeps H Q (tryCatch x handle) := by
  intro memo hmemo
  obtain ⟨hresult, hkeeps⟩ := hx memo hmemo
  simp only [MonadExcept.tryCatch, tryCatchThe, MonadExceptOf.tryCatch, ExceptT.tryCatch,
    ExceptT.mk, Bind.bind, StateT.bind]
  rcases hxm : x memo with ⟨e | a, memo'⟩ <;> rw [hxm] at hresult hkeeps
  · exact hh e memo' hkeeps
  · exact ⟨hresult, hkeeps⟩

/-- A type is given as it is remembered, or looked up and remembered. -/
theorem remembered {t : TypeName} {search : Resolve TypeHandle} (h : search.Keeps H H) :
    Resolve.Keeps H H (SymbolTable.remembered t search) := by
  unfold SymbolTable.remembered
  split
  · have hthrow : Resolve.Keeps H (fun _ => False)
        (MonadExcept.throw (.resolution (t.render ++ ": unbound generic parameter")) :
          Resolve PUnit) := throw _
    exact hthrow.bind fun _ hnone => hnone.elim
  · refine get.bind fun memo hmemo => ?_
    split
    · rename_i handle hhandle
      exact .pure (hmemo.get? hhandle)
    · refine h.bind fun handle hhandle => ?_
      have hinsert : Resolve.Keeps H (fun _ => True) (modify fun memo : Memo =>
          { memo with types := memo.types.insert t.render handle } : Resolve Unit) :=
        fun memo hmemo => ⟨fun _ _ => trivial, hmemo.insert hhandle⟩
      exact hinsert.bind fun _ _ => .pure hhandle

end Resolve.Keeps

/-- What the symbols give for a type of a family is as `H` says. -/
structure SymbolTable.Gives (P : TypeName → Prop) (H : TypeHandle → Prop) (symbols : SymbolTable) :
    Prop where
  /-- A registered type is. -/
  named : ∀ {name args d}, P (.named name args) → symbols.findType? name = some d →
    H ⟨.named name args, some d⟩
  /-- An array, a reference or a pointer is. -/
  suffixed : ∀ {element suffix}, P (.suffixed element suffix) → H ⟨.suffixed element suffix, none⟩

mutual

/-- A type of the family that is looked up is remembered as `H` says, and so are its arguments. -/
theorem keeps_resolveType {H : TypeHandle → Prop} {symbols : SymbolTable} (hP : IsFamily P)
    (hs : symbols.Gives P H) : (t : TypeName) → P t → (symbols.resolveType t).Keeps H H
  | .named name args, ht => by
    unfold SymbolTable.resolveType
    apply Resolve.Keeps.remembered
    have hdefinition : Resolve.Keeps H (fun d => symbols.findType? name = some d)
        (liftM (symbols.definitionOf name args) : Resolve TypeDefinition) := by
      refine .ofExcept fun d hd => ?_
      unfold SymbolTable.definitionOf at hd
      dsimp only at hd
      split at hd
      · cases hd
      · rename_i d' hd'
        split at hd
        · cases hd
          exact hd'
        · cases hd
    refine hdefinition.bind fun d hd => ?_
    exact (keeps_resolveTypes hP hs args (hP.args ht)).bind fun _ _ => .pure (hs.named ht hd)
  | .suffixed element suffix, ht => by
    unfold SymbolTable.resolveType
    apply Resolve.Keeps.remembered
    exact (keeps_resolveType hP hs element (hP.element ht)).discard.bind fun _ _ =>
      .pure (hs.suffixed ht)
  | .typeParam _, _ => by
    unfold SymbolTable.resolveType
    exact .remembered (.throw _)
  | .methodParam _, _ => by
    unfold SymbolTable.resolveType
    exact .remembered (.throw _)

/-- Several types of the family are resolved, and only what is known is remembered. -/
theorem keeps_resolveTypes {H : TypeHandle → Prop} {symbols : SymbolTable} (hP : IsFamily P)
    (hs : symbols.Gives P H) :
    (ts : List TypeName) → (∀ t ∈ ts, P t) → (symbols.resolveTypes ts).Keeps H fun _ => True
  | [], _ => by
    unfold SymbolTable.resolveTypes
    exact .pure trivial
  | t :: rest, hts => by
    unfold SymbolTable.resolveTypes
    exact (keeps_resolveType hP hs t (hts t List.mem_cons_self)).discard.bind fun _ _ =>
      keeps_resolveTypes hP hs rest fun u hu => hts u (List.mem_cons_of_mem t hu)

end

/-- A lookup that keeps the types that are remembered over the family, with results as `Q` says. -/
def KeepsMemo (P : TypeName → Prop) (Q : α → Prop) (lookup : Resolve α) : Prop :=
  ∀ memo : Memo, memo.types.Holds (TypeHandle.Over P) →
    (∀ a, (lookup memo).1 = .ok a → Q a) ∧ (lookup memo).2.types.Holds (TypeHandle.Over P)

/-- A host that stays over a family gives types that are over it. -/
theorem SymbolTable.Over.gives {symbols : SymbolTable} (hs : symbols.Over P) :
    symbols.Gives P (TypeHandle.Over P) where
  named := by
    rintro name args d ht hd
    refine ⟨ht, ?_⟩
    rintro _ ⟨⟩
    exact hs.types name d hd
  suffixed ht := ⟨ht, nofun⟩

/-- A type of the family is resolved to a handle over it. -/
theorem keepsMemo_resolveType {symbols : SymbolTable} (hP : IsFamily P) (hs : symbols.Over P)
    (t : TypeName) (ht : P t) : KeepsMemo P (TypeHandle.Over P) (symbols.resolveType t) :=
  keeps_resolveType hP hs.gives t ht

/-- The host's methods are remembered apart from the types. -/
theorem keeps_hostMethod? {H : TypeHandle → Prop} (symbols : SymbolTable) (b : BoundMethod) :
    Resolve.Keeps H (fun _ => True) (symbols.hostMethod? b : Resolve (Option HostMethod)) := by
  intro memo hmemo
  refine ⟨fun _ _ => trivial, ?_⟩
  show (symbols.hostMethod? b memo).2.types.Holds H
  rw [SymbolTable.hostMethod?_apply]
  split
  · exact hmemo
  · exact hmemo

/-- A search for a method of the host remembers no types. -/
theorem keepsMemo_hostMethod? (symbols : SymbolTable) (b : BoundMethod) :
    KeepsMemo P (fun _ => True) (symbols.hostMethod? b : Resolve (Option HostMethod)) :=
  keeps_hostMethod? symbols b

/-- The type of a field that has been looked up is in the family, and the accessor stays over it. -/
structure FieldHandle.Over (P : TypeName → Prop) (f : FieldHandle) : Prop where
  /-- The type of the field is in the family. -/
  fieldType : ∀ t ∈ f.fieldType, P t
  /-- The accessor stays over the family. -/
  accessor : ∀ a ∈ f.accessor, a.Over P

/-- The types in a field that has been looked up are of the family, and its accessor is one that the
host has registered. -/
theorem keeps_resolveField {H : TypeHandle → Prop} {symbols : SymbolTable} (hP : IsFamily P)
    (hs : symbols.Gives P H) (f : FieldRef) {caller : GenericContext} (hcaller : caller.Over P) :
    (symbols.resolveField f caller).Keeps H fun field => (∀ t ∈ field.fieldType, P t) ∧
      ∀ a ∈ field.accessor, ∃ key, symbols.findField? key = some a := by
  have hclosed : Resolve.Keeps H
      (fun closed => P closed.declaringType ∧ ∀ t ∈ closed.fieldType, P t)
      (liftM (SymbolTable.closeField f caller) : Resolve FieldRef) := by
    refine .ofExcept fun closed hclose => ?_
    unfold SymbolTable.closeField at hclose
    have hclose := mapError_eq_ok.1 hclose
    unfold FieldRef.substitute at hclose
    have hsubstitute : ∀ {t u : TypeName},
        t.substitute caller.typeArgs caller.methodArgs = .ok u → P u :=
      hP.substitute hcaller.typeArgs hcaller.methodArgs
    dsimp only at hclose
    split at hclose
    · rw [pure_bind] at hclose
      obtain ⟨declaringType, hdeclaring, hclose⟩ := bind_eq_ok.1 hclose
      cases hclose
      exact ⟨hsubstitute hdeclaring, nofun⟩
    · obtain ⟨fieldType, hfield, hclose⟩ := bind_eq_ok.1 hclose
      obtain ⟨declaringType, hdeclaring, hclose⟩ := bind_eq_ok.1 hclose
      obtain ⟨t, ht, rfl⟩ := map_eq_ok.1 hfield
      cases hclose
      refine ⟨hsubstitute hdeclaring, ?_⟩
      rintro _ ⟨⟩
      exact hsubstitute ht
  unfold SymbolTable.resolveField
  refine hclosed.bind fun closed hclosed => ?_
  have haccessor : ∀ a ∈ symbols.accessor? closed, ∃ key, symbols.findField? key = some a := by
    intro a ha
    rcases Option.or_eq_some_iff.1 ha with h | ⟨-, h⟩
    · exact ⟨_, h⟩
    · exact ⟨_, h⟩
  dsimp only
  split
  · have hresolve : Resolve.Keeps H (fun _ => True)
        (discard (symbols.resolveType closed.declaringType)) :=
      (keeps_resolveType hP hs closed.declaringType hclosed.1).discard
    refine (hresolve.tryCatch fun _ => .throw _).bind fun _ _ => ?_
    exact .pure ⟨hclosed.2, haccessor⟩
  · exact .pure ⟨hclosed.2, haccessor⟩

/-- A field of the family is resolved to a handle over it. -/
theorem keepsMemo_resolveField {symbols : SymbolTable} (hP : IsFamily P) (hs : symbols.Over P)
    (f : FieldRef) {caller : GenericContext} (hcaller : caller.Over P) :
    KeepsMemo P (FieldHandle.Over P) (symbols.resolveField f caller) :=
  (keeps_resolveField hP hs.gives f hcaller).conseq fun _ h => ⟨h.1, fun a ha => by
    obtain ⟨key, hkey⟩ := h.2 a ha
    exact hs.fields key a hkey⟩

end Hotswap
