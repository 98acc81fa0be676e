import Hotswap.Proofs.Machine.Carried
import Hotswap.Proofs.Symbols.Types
import Mathlib

/-!
# Fields that the machine keeps

An instruction names a field by its text. An instance field that the machine keeps is stored in the
object, under the bare name, and a static one apart from the heap, under the text of the closed
field. What has not been stored is read as the default of the type of the field, made for that one
reading.

Two things are said about such fields, each as far as it holds.

* *Writing through an address.* The address of a field is what a reading of it gives. If the field
  has been stored, a write through the address is seen by every later reading. If it has not been,
  the default is made, written to and dropped: the field stays without a value, and no object that
  was there before has changed (`readThrough_writeThrough`).
* *Fields side by side.* A store in one field of an object leaves the other objects alone, and the
  other fields of that object by name. So two fields interfere exactly if they have one bare name,
  as a class and its base may each declare one (`pushField_storeInto`).
-/

namespace Hotswap

open FrameAction

variable {scope : Scope} {callee : Callee} {text : String} {cx : GenericContext} {f g : Frame}
  {s t : State} {h : FieldHandle} {v : Value}

/-! ## Looking a field up -/

/-- A field that can be looked up without adding to what is remembered. -/
def FieldHandle.Known (h : FieldHandle) (memo : Memo) : Prop :=
  h.declaringType.hasPlaceholders = false ∧
    ∃ handle, memo.types.get? h.declaringType.render = some handle

/-- What is known of a field stays known when more is remembered. -/
theorem FieldHandle.Known.mono {memo memo' : Memo} (hk : h.Known memo) (hm : memo.Extends memo') :
    h.Known memo' :=
  ⟨hk.1, hk.2.imp fun handle hhandle => hm _ handle hhandle⟩

/-- A lookup runs on what the state remembers. -/
theorem Machine.resolve_apply {α : Type} (lookup : Resolve α) :
    Machine.resolve lookup s = match lookup s.memo with
      | (.ok a, memo) => (.ok a, { s with memo })
      | (.error e, memo) => (.error (.failed e), { s with memo }) := by
  unfold Machine.resolve
  rw [Machine.get_bind]
  rcases lookup s.memo with ⟨e | a, memo⟩ <;> rfl

/-- Looks up the field that a text names. -/
def Scope.field (scope : Scope) (text : String) (cx : GenericContext) : Machine FieldHandle := do
  let ref ← Machine.ofExcept ((FieldRef.parse text).mapError .format)
  Machine.resolve (scope.symbols.resolveField ref cx)

/-- A field that is parsed is resolved in the context. -/
theorem Scope.field_of_parse {ref : FieldRef} (hparse : FieldRef.parse text = .ok ref) :
    scope.field text cx s = match scope.symbols.resolveField ref cx s.memo with
      | (.ok h, memo) => (.ok h, { s with memo })
      | (.error e, memo) => (.error (.failed e), { s with memo }) := by
  unfold Scope.field
  rw [hparse]
  show Machine.resolve (scope.symbols.resolveField ref cx) s = _
  rw [Machine.resolve_apply]
  rcases scope.symbols.resolveField ref cx s.memo with ⟨e | h, memo⟩ <;> rfl

/-- A field that is found is the one that the text names. Looking it up only adds to what is
remembered, and a field without an accessor is known from then on. -/
theorem Scope.field_eq_ok (hfield : scope.field text cx s = (.ok h, t)) :
    scope.symbols.fieldNamed text cx = .ok h ∧ s.memo.Extends t.memo ∧
      t = { s with memo := t.memo } ∧ (h.accessor = none → h.Known t.memo) := by
  cases hparse : FieldRef.parse text with
  | error e =>
    unfold Scope.field at hfield
    rw [hparse] at hfield
    cases hfield
  | ok ref =>
    rw [Scope.field_of_parse hparse] at hfield
    have hgrows := scope.symbols.remembers_resolveField ref cx s.memo
    rw [SymbolTable.resolveField_apply] at hfield hgrows
    unfold SymbolTable.fieldNamed
    rw [hparse]
    show (SymbolTable.closeField ref cx >>= fun closed => _) = _ ∧ _
    cases hclose : SymbolTable.closeField ref cx with
    | error e =>
      rw [hclose] at hfield
      cases hfield
    | ok closed =>
      rw [hclose] at hfield hgrows
      dsimp only at hfield hgrows
      by_cases hnone : (scope.symbols.accessor? closed).isNone = true
      · rw [if_pos hnone] at hfield hgrows
        rcases hfound : scope.symbols.resolveType closed.declaringType s.memo with
          ⟨e | handle, memo'⟩ <;> rw [hfound] at hfield hgrows <;> cases hfield
        have hknown := SymbolTable.get?_of_resolveType hfound
        exact ⟨rfl, hgrows, rfl, fun _ => ⟨hknown.1, handle, hknown.2⟩⟩
      · rw [if_neg hnone] at hfield hgrows
        cases hfield
        refine ⟨rfl, hgrows, rfl, fun haccessor => absurd ?_ hnone⟩
        rw [Option.isNone_iff_eq_none]
        exact haccessor

/-- A field without an accessor that is known is found, and nothing changes. -/
theorem Scope.field_of_known (hnamed : scope.symbols.fieldNamed text cx = .ok h)
    (haccessor : h.accessor = none) (hknown : h.Known s.memo) :
    scope.field text cx s = (.ok h, s) := by
  obtain ⟨ref, hparse, hnamed⟩ := bind_eq_ok.1 hnamed
  obtain ⟨closed, hclose, hnamed⟩ := bind_eq_ok.1 hnamed
  cases hnamed
  obtain ⟨hopen, handle, hhandle⟩ := hknown
  rw [Scope.field_of_parse (mapError_eq_ok.1 hparse), SymbolTable.resolveField_apply, hclose]
  dsimp only
  have hnone : (scope.symbols.accessor? closed).isNone = true :=
    Option.isNone_iff_eq_none.2 haccessor
  have hresolve : scope.symbols.resolveType closed.declaringType s.memo = (.ok handle, s.memo) :=
    SymbolTable.resolveType_of_get? scope.symbols hopen hhandle
  rw [if_pos hnone, hresolve]

/-- The generic arguments can be read. -/
theorem GenericContext.Over.allWellFormed (hcx : cx.Over TypeName.WellFormed) :
    TypeName.AllWellFormed cx.typeArgs ∧ TypeName.AllWellFormed cx.methodArgs :=
  ⟨TypeName.allWellFormed_iff.2 hcx.typeArgs, TypeName.allWellFormed_iff.2 hcx.methodArgs⟩

/-- A field is closed to one that can be read. -/
theorem GenericContext.Over.wellFormed_closeField {ref closed : FieldRef}
    (hcx : cx.Over TypeName.WellFormed) (href : ref.WellFormed)
    (hclose : SymbolTable.closeField ref cx = .ok closed) : closed.WellFormed :=
  SymbolTable.wellFormed_of_closeField href hcx.allWellFormed.1 hcx.allWellFormed.2 hclose

/-- The type of a field that is found can be read where the generic arguments can, and what is
remembered stays as the symbols say. -/
theorem Scope.sound_of_field (hfield : scope.field text cx s = (.ok h, t))
    (hcx : cx.Over TypeName.WellFormed) (hs : s.memo.Sound scope.symbols) :
    t.memo.Sound scope.symbols ∧ ∀ type ∈ h.fieldType, type.WellFormed := by
  obtain ⟨hnamed, -, hstate, -⟩ := Scope.field_eq_ok hfield
  obtain ⟨ref, hparse, hnamed⟩ := bind_eq_ok.1 hnamed
  obtain ⟨closed, hclose, hnamed⟩ := bind_eq_ok.1 hnamed
  cases hnamed
  have hparse := mapError_eq_ok.1 hparse
  have hwf : ∀ c, SymbolTable.closeField ref cx = .ok c → c.WellFormed := fun c hc =>
    hcx.wellFormed_closeField (FieldRef.wellFormed_of_parse hparse) hc
  obtain ⟨-, hsound, -⟩ := scope.symbols.answers_resolveField
    (fun c hc => (hwf c hc).declaringType) s.memo hs
  rw [Scope.field_of_parse hparse] at hfield
  rcases hfound : scope.symbols.resolveField ref cx s.memo with ⟨e | h, memo⟩ <;>
    rw [hfound] at hfield hsound <;> cases hfield
  exact ⟨hsound, (hwf closed hclose).fieldType⟩

/-- A variable of a type that can be read starts as the symbols say. -/
theorem Scope.defaultValue_apply {type : TypeName} {handle : TypeHandle} (htype : type.WellFormed)
    (hhandle : scope.symbols.handleOf type = .ok handle) (hs : s.memo.Sound scope.symbols) :
    ∃ memo, scope.defaultValue type s = (.ok (handle.defaultValue s.memory).1,
      { s with memory := (handle.defaultValue s.memory).2, memo }) := by
  cases type with
  | named name args =>
    obtain ⟨hresult, -, -⟩ := scope.symbols.answers_resolveType _ htype s.memo hs
    refine ⟨(scope.symbols.resolveType (.named name args) s.memo).2, ?_⟩
    show (Machine.resolve (scope.symbols.resolveType (.named name args)) >>= fun handle =>
      Machine.onMemory handle.defaultValue) s = _
    rw [Machine.bind_apply, Machine.resolve_apply]
    rcases hfound : scope.symbols.resolveType (.named name args) s.memo with ⟨e | found, memo⟩ <;>
      rw [hfound, hhandle] at hresult <;> cases hresult
    rfl
  | suffixed element suffix =>
    rw [SymbolTable.handleOf, TypeName.ifClosed] at hhandle
    split at hhandle
    · cases hhandle
    · obtain ⟨-, -, hhandle⟩ := bind_eq_ok.1 hhandle
      cases hhandle
      exact ⟨s.memo, rfl⟩
  | typeParam index =>
    rw [SymbolTable.handleOf, TypeName.ifClosed] at hhandle
    split at hhandle <;> cases hhandle
  | methodParam index =>
    rw [SymbolTable.handleOf, TypeName.ifClosed] at hhandle
    split at hhandle <;> cases hhandle

/-- Starting a variable only adds to what is remembered. -/
theorem Scope.extends_defaultValue (scope : Scope) (type : TypeName) (s : State) :
    s.memo.Extends (scope.defaultValue type s).2.memo := by
  cases type with
  | named name args =>
    show s.memo.Extends ((Machine.resolve (scope.symbols.resolveType (.named name args)) >>=
      fun handle => Machine.onMemory handle.defaultValue) s).2.memo
    have hgrows := scope.symbols.remembers_resolveType (.named name args) s.memo
    rw [Machine.bind_apply, Machine.resolve_apply]
    rcases hfound : scope.symbols.resolveType (.named name args) s.memo with ⟨e | handle, memo⟩ <;>
      rw [hfound] at hgrows
    · exact hgrows
    · exact hgrows
  | _ => exact Memo.Extends.refl s.memo

/-! ## Instructions on fields -/

/-- The field in an operand is looked up in the context of the frame. -/
theorem fieldOperand_apply {i : Instruction} (hi : i.operand = .field text) :
    fieldOperand scope i f = (do return (← scope.field text f.context, f) : Machine _) := by
  unfold fieldOperand Scope.field
  rw [hi]
  dsimp only
  cases FieldRef.parse text <;> rfl

/-- An instruction on a field looks the field up first. -/
theorem step_field {i : Instruction} {e : Effect} {rest : FieldHandle → FrameAction Unit}
    (hop : i.opcode.action = .effect e) (hi : i.operand = .field text)
    (hperform : perform scope callee i e = fieldOperand scope i >>= rest) :
    step scope callee i f = (do
      let h ← scope.field text f.context
      let r ← rest h f
      return (.next, r.2) : Machine (Flow × Frame)) := by
  unfold step
  rw [hop]
  dsimp only
  rw [hperform, bind_assoc]
  show (fieldOperand scope i f >>= _ : Machine _) = _
  rw [fieldOperand_apply hi, bind_assoc]
  congr 1

/-- An instruction that reads a field of the target on top. -/
theorem step_loadField {i : Instruction} (hop : i.opcode.action = .effect .loadField)
    (hi : i.operand = .field text) (target : Value) :
    step scope callee i (f.pushed target) = (do
      let h ← scope.field text f.context
      let v ← Step.loadField scope h target
      return (.next, f.pushed v) : Machine (Flow × Frame)) := by
  rw [step_field hop hi rfl]
  congr 1
  funext h
  show ((ofMachine (Step.loadField scope h target) >>= push) f >>= _ : Machine _) = _
  rw [ofMachine_push, bind_assoc]
  rfl

/-- An instruction that reads a static field. -/
theorem step_loadStatic {i : Instruction} (hop : i.opcode.action = .effect .loadStatic)
    (hi : i.operand = .field text) :
    step scope callee i f = (do
      let h ← scope.field text f.context
      let v ← Step.loadStatic scope h
      return (.next, f.pushed v) : Machine (Flow × Frame)) := by
  rw [step_field hop hi rfl]
  congr 1
  funext h
  rw [ofMachine_push, bind_assoc]
  rfl

/-- An instruction that writes a field of the target below the top. -/
theorem step_storeField {i : Instruction} (hop : i.opcode.action = .effect .storeField)
    (hi : i.operand = .field text) (target v : Value) :
    step scope callee i ((f.pushed target).pushed v) = (do
      let h ← scope.field text f.context
      Step.storeField h target v
      return (.next, f) : Machine (Flow × Frame)) := by
  rw [step_field hop hi rfl]
  congr 1
  funext h
  show (ofMachine (Step.storeField h target v) f >>= _ : Machine _) = _
  unfold ofMachine
  rw [bind_assoc]
  rfl

/-! ## Where a field is -/

/-- What has a field: an object, or a type. -/
inductive Holder where
  /-- An object. -/
  | object (r : ObjectRef)
  /-- A type. -/
  | type

namespace Holder

/-- What a field has been stored with, if it has been. -/
def kept (s : State) (h : FieldHandle) : Holder → Option Value
  | .object r => s.memory.heap.field? r h.name
  | .type => s.statics.get? h.key

/-- Reads a field. -/
def read (scope : Scope) (h : FieldHandle) : Holder → Machine Value
  | .object r => Step.loadField scope h (.object r)
  | .type => Step.loadStatic scope h

/-- What has been stored is read, and anything else is made for the reading. -/
theorem read_apply (holder : Holder) (ha : h.accessor = none) :
    holder.read scope h s = match holder.kept s h with
      | some v => (.ok v, s)
      | none => Step.fieldDefault scope h s := by
  cases holder with
  | object r =>
    unfold read Step.loadField
    rw [ha]
    show (match s.memory.heap.field? r h.name with
      | some v => pure v
      | none => Step.fieldDefault scope h : Machine Value) s = _
    dsimp only [kept]
    cases s.memory.heap.field? r h.name <;> rfl
  | type =>
    unfold read Step.loadStatic
    rw [ha]
    show (match s.statics.get? h.key with
      | some v => pure v
      | none => Step.fieldDefault scope h : Machine Value) s = _
    dsimp only [kept]
    cases s.statics.get? h.key <;> rfl

/-- Reading a field that the machine keeps only adds to what is remembered. -/
theorem extends_read (holder : Holder) (ha : h.accessor = none) :
    s.memo.Extends (holder.read scope h s).2.memo := by
  rw [read_apply holder ha]
  split
  · exact .refl s.memo
  · unfold Step.fieldDefault
    cases h.fieldType with
    | some type => exact scope.extends_defaultValue type s
    | none => exact .refl s.memo

/-- Pushes what names the holder to an instruction. -/
def push : Holder → FrameAction Unit
  | .object r => FrameAction.push (.object r)
  | .type => pure ()

/-- The instruction that reads a field of the holder, or the address of the field. -/
def load (address : Bool) (text : String) : Holder → Instruction
  | .object _ => ⟨if address then .ldflda else .ldfld, .field text, none⟩
  | .type => ⟨if address then .ldsflda else .ldsfld, .field text, none⟩

/-- Pushes a field, or the address of the field, which is the same. -/
def pushField (scope : Scope) (callee : Callee) (address : Bool) (text : String)
    (holder : Holder) : FrameAction Unit := do
  holder.push
  discard (step scope callee (holder.load address text))

/-- A field is pushed by looking it up and reading it. -/
theorem pushField_apply (address : Bool) (holder : Holder) :
    holder.pushField scope callee address text f = (do
      let h ← scope.field text f.context
      let v ← holder.read scope h
      return ((), f.pushed v) : Machine (Unit × Frame)) := by
  cases holder with
  | object r =>
    have hop : (load address text (.object r)).opcode.action = .effect .loadField := by
      cases address <;> rfl
    show (step scope callee (load address text (.object r)) (f.pushed (.object r)) >>= _ :
      Machine _) = _
    rw [step_loadField hop rfl, bind_assoc]
    congr 1
    funext h
    rw [bind_assoc]
    rfl
  | type =>
    have hop : (load address text .type).opcode.action = .effect .loadStatic := by
      cases address <;> rfl
    show (step scope callee (load address text .type) f >>= _ : Machine _) = _
    rw [step_loadStatic hop rfl, bind_assoc]
    congr 1
    funext h
    rw [bind_assoc]
    rfl

/-- Loads the address of a field and stores a value in a field of what is there. -/
def writeThrough (scope : Scope) (callee : Callee) (text inner : String) (v : Value)
    (holder : Holder) : FrameAction Unit := do
  holder.pushField scope callee true text
  FrameAction.push v
  discard (step scope callee ⟨.stfld, .field inner, none⟩)

/-- Loads a field, and a field of what is there. -/
def readThrough (scope : Scope) (callee : Callee) (text inner : String) (holder : Holder) :
    FrameAction Unit := do
  holder.pushField scope callee false text
  discard (step scope callee ⟨.ldfld, .field inner, none⟩)

/-- A field is written through another one by reading that first. -/
theorem writeThrough_apply (holder : Holder) (inner : String) :
    holder.writeThrough scope callee text inner v f = (do
      let h ← scope.field text f.context
      let target ← holder.read scope h
      let g ← scope.field inner f.context
      Step.storeField g target v
      return ((), f) : Machine (Unit × Frame)) := by
  unfold writeThrough
  show (holder.pushField scope callee true text f >>= _ : Machine _) = _
  rw [pushField_apply, bind_assoc]
  congr 1
  funext h
  rw [bind_assoc]
  congr 1
  funext target
  rw [pure_bind]
  show (step scope callee ⟨.stfld, .field inner, none⟩ ((f.pushed target).pushed v) >>= _ :
    Machine _) = _
  rw [step_storeField rfl rfl, bind_assoc]
  congr 1
  funext g
  rw [bind_assoc]
  rfl

/-- So it is read. -/
theorem readThrough_apply (holder : Holder) (inner : String) :
    holder.readThrough scope callee text inner f = (do
      let h ← scope.field text f.context
      let target ← holder.read scope h
      let g ← scope.field inner f.context
      let v ← Step.loadField scope g target
      return ((), f.pushed v) : Machine (Unit × Frame)) := by
  unfold readThrough
  show (holder.pushField scope callee false text f >>= _ : Machine _) = _
  rw [pushField_apply, bind_assoc]
  congr 1
  funext h
  rw [bind_assoc]
  congr 1
  funext target
  rw [pure_bind]
  show (step scope callee ⟨.ldfld, .field inner, none⟩ (f.pushed target) >>= _ :
    Machine _) = _
  rw [step_loadField rfl rfl, bind_assoc]
  congr 1
  funext g
  rw [bind_assoc]
  rfl

end Holder

/-! ## Writing through an address -/

/-- A type whose variables each start as an object of their own, apart from all that are there. -/
def TypeHandle.MakesObject (handle : TypeHandle) : Prop :=
  ∀ m : Memory, ∃ r, (handle.defaultValue m).1 = .object r ∧ ¬m.heap.hasObject r ∧
    ∀ other, m.heap.hasObject other →
      (handle.defaultValue m).2.heap.content other = m.heap.content other

/-- Value types without an initial value of their own are such types. -/
theorem TypeHandle.makesObject {handle : TypeHandle} {d : TypeDefinition}
    (hd : handle.definition = some d) (hkind : d.kind = .valueType) (hinitial : d.initial = none) :
    handle.MakesObject := by
  have hdefault : handle.defaultValue = fun m => m.newObject handle.name := by
    unfold defaultValue
    rw [hd]
    dsimp only
    unfold TypeDefinition.defaultValue
    rw [hkind, hinitial]
  unfold MakesObject
  rw [hdefault]
  exact fun m => ⟨(m.heap.newObject handle.name {}).1, rfl, Nat.lt_irrefl _,
    fun other hother => m.heap.content_newObject_of_hasObject handle.name {} hother⟩

/-- The state with a value stored in a field of an object. -/
def State.setField (s : State) (r : ObjectRef) (name : String) (v : Value) : State :=
  { s with memory := { s.memory with heap := s.memory.heap.setField r name v } }

/-- Storing in a field that the machine keeps changes one field of one object. -/
theorem storeField_eq_ok (ha : h.accessor = none) {target : Value}
    (hstore : Step.storeField h target v s = (.ok (), t)) :
    ∃ r, target = .object r ∧ t = s.setField r h.name v := by
  unfold Step.storeField at hstore
  rw [ha] at hstore
  cases target with
  | object r =>
    cases hstore
    exact ⟨r, rfl, rfl⟩
  | _ => cases hstore

/-- A field that has been stored in an object is read. -/
theorem loadField_of_field? (ha : h.accessor = none) {r : ObjectRef}
    (hkept : s.memory.heap.field? r h.name = some v) :
    Step.loadField scope h (.object r) s = (.ok v, s) := by
  have hread : (Holder.object r).read scope h s = _ := Holder.read_apply _ ha
  rw [show (Holder.object r).kept s h = some v from hkept] at hread
  exact hread

/-- An object is found by its address alone. -/
theorem Heap.content_congr (heap : Heap) {r w : ObjectRef} (h : r.address = w.address) :
    heap.content r = heap.content w := by
  unfold Heap.content
  rw [h]

namespace Holder

variable {holder : Holder} {w : ObjectRef} {name : String}

/-- The object is there, if the holder is one. -/
def Present (s : State) : Holder → Prop
  | .object r => s.memory.heap.hasObject r
  | .type => True

/-- The field is not the one of that name in an object. -/
def Avoids (h : FieldHandle) (w : ObjectRef) (name : String) : Holder → Prop
  | .object r => r.address = w.address → h.name ≠ name
  | .type => True

/-- What a holder keeps depends on memory and the static fields alone. -/
theorem kept_congr (hmemory : t.memory = s.memory) (hstatics : t.statics = s.statics) :
    holder.kept t h = holder.kept s h := by
  unfold kept
  rw [hmemory, hstatics]

/-- What is kept is not touched by a store elsewhere. -/
theorem kept_setField (ha : holder.Avoids h w name) (hw : s.memory.heap.hasObject w) (v : Value) :
    holder.kept (s.setField w name v) h = holder.kept s h := by
  cases holder with
  | type => rfl
  | object r =>
    show (s.memory.heap.setField w name v).field? r h.name = s.memory.heap.field? r h.name
    by_cases heq : r.address = w.address
    · have hkept := s.memory.heap.field?_setField_of_ne w v hw (ha heq)
      unfold Heap.field? at hkept ⊢
      rw [Heap.content_congr _ heq, hkept, Heap.content_congr _ heq]
    · unfold Heap.field?
      rw [s.memory.heap.content_setField_of_ne name v heq]

/-- **Writing through the address of a field.** The value is read afterwards if the field had been
stored, whatever else the heap holds. If it had not been and its type makes an object for each
variable, the write is lost: the field is still without a value, and no object has changed that was
there before. -/
theorem readThrough_writeThrough {inner : String} {h' : FieldHandle} {f' : Frame}
    (hnamed : scope.symbols.fieldNamed text f.context = .ok h) (ha : h.accessor = none)
    (hnamed' : scope.symbols.fieldNamed inner f.context = .ok h') (ha' : h'.accessor = none)
    (hpresent : holder.Present s)
    (hwrite : holder.writeThrough scope callee text inner v f s = (.ok ((), f'), t)) :
    f' = f ∧
    (∀ w, holder.kept s h = some (.object w) → s.memory.heap.hasObject w →
      holder.Avoids h w h'.name →
        holder.readThrough scope callee text inner f t = (.ok ((), f.pushed v), t)) ∧
    (∀ type handle, h.fieldType = some type → scope.symbols.handleOf type = .ok handle →
      handle.MakesObject → s.memo.Sound scope.symbols → f.context.Over TypeName.WellFormed →
        holder.kept s h = none → holder.kept t h = none ∧
          ∀ r, s.memory.heap.hasObject r →
            t.memory.heap.content r = s.memory.heap.content r) := by
  rw [writeThrough_apply] at hwrite
  obtain ⟨h₁, s₁, hfield, hwrite⟩ := Machine.bind_eq_ok.1 hwrite
  obtain ⟨target, s₂, hread, hwrite⟩ := Machine.bind_eq_ok.1 hwrite
  obtain ⟨h₂, s₃, hfield', hwrite⟩ := Machine.bind_eq_ok.1 hwrite
  obtain ⟨_, s₄, hstore, hwrite⟩ := Machine.bind_eq_ok.1 hwrite
  cases hwrite
  obtain ⟨hnamed₁, hgrows, hstate, hknown⟩ := Scope.field_eq_ok hfield
  obtain ⟨hnamed₂, hgrows', hstate', hknown'⟩ := Scope.field_eq_ok hfield'
  cases hnamed.symm.trans hnamed₁
  cases hnamed'.symm.trans hnamed₂
  obtain ⟨w, rfl, rfl⟩ := storeField_eq_ok ha' hstore
  -- Lookups leave memory and the static fields as they are.
  have hmemory₁ : s₁.memory = s.memory := by rw [hstate]
  have hstatics₁ : s₁.statics = s.statics := by rw [hstate]
  have hmemory₃ : s₃.memory = s₂.memory := by rw [hstate']
  have hstatics₃ : s₃.statics = s₂.statics := by rw [hstate']
  rw [read_apply holder ha, kept_congr hmemory₁ hstatics₁] at hread
  refine ⟨rfl, fun r hkept hr havoids => ?_,
    fun type handle htype hhandle hmakes hs hcx hnone => ?_⟩
  · -- The object that was written to is the one that is kept.
    rw [hkept] at hread
    cases hread
    have hw : s₃.memory.heap.hasObject w := by rwa [hmemory₃, hmemory₁]
    have hstill := kept_setField havoids hw v
    rw [kept_congr hmemory₃ hstatics₃, kept_congr hmemory₁ hstatics₁, hkept] at hstill
    have hread' : holder.read scope h (s₃.setField w h'.name v) =
        (.ok (.object w), s₃.setField w h'.name v) := by
      rw [read_apply holder ha, hstill]
    rw [readThrough_apply]
    refine Machine.bind_eq_ok.2 ⟨h, _, Scope.field_of_known hnamed ha
      ((hknown ha).mono hgrows'), ?_⟩
    refine Machine.bind_eq_ok.2 ⟨_, _, hread', ?_⟩
    refine Machine.bind_eq_ok.2 ⟨h', _, Scope.field_of_known hnamed' ha' (hknown' ha'), ?_⟩
    refine Machine.bind_eq_ok.2 ⟨v, _, loadField_of_field? ha' ?_, rfl⟩
    exact s₃.memory.heap.field?_setField_self w h'.name v hw
  · rw [hnone] at hread
    obtain ⟨hs₁, hwf⟩ := Scope.sound_of_field hfield hcx hs
    dsimp only at hread
    unfold Step.fieldDefault at hread
    rw [htype] at hread
    dsimp only at hread
    obtain ⟨memo, hdefault⟩ := Scope.defaultValue_apply (hwf type htype) hhandle hs₁
    rw [hdefault] at hread
    obtain ⟨r, hr, hfresh, hothers⟩ := hmakes s₁.memory
    obtain ⟨hvalue, hstate₂⟩ := Prod.mk.inj hread
    rw [Except.ok.injEq, hr, Value.object.injEq] at hvalue
    subst hvalue
    rw [hmemory₁] at hfresh hothers
    have hmemory₂ : s₂.memory = (handle.defaultValue s.memory).2 := by rw [← hstate₂, hmemory₁]
    have hcontent : ∀ other, s.memory.heap.hasObject other →
        (s₃.memory.heap.setField r h'.name v).content other = s.memory.heap.content other := by
      intro other hother
      have hne : other.address ≠ r.address := by
        intro heq
        unfold Heap.hasObject at hother hfresh
        rw [heq] at hother
        exact hfresh hother
      rw [s₃.memory.heap.content_setField_of_ne h'.name v hne, hmemory₃, hmemory₂]
      exact hothers other hother
    refine ⟨?_, hcontent⟩
    cases holder with
    | type =>
      show s₃.statics.get? h.key = none
      rw [hstatics₃, ← hstate₂]
      show s₁.statics.get? h.key = none
      rw [hstatics₁]
      exact hnone
    | object o =>
      show ((s₃.memory.heap.setField r h'.name v).content o).fields.get? h.name = none
      rw [hcontent o hpresent]
      exact hnone

end Holder

/-! ### A write that is lost -/

/-- A host with a class of units and its base, a type of points and integers that start at zero. -/
def unitHost : SymbolTable where
  modules := [{
    name := "Game"
    types := .ofList [("Game.Base", { name := "Game.Base", kind := .classType }),
      ("Game.Unit", { name := "Game.Unit", kind := .classType, base := some (.plain "Game.Base") }),
      ("Game.Point", { name := "Game.Point", kind := .valueType }),
      ("System.Int32", { name := "System.Int32", kind := .valueType
                         initial := some (pure (.int32 0)) })] }]

/-- What code that works with that host works with. -/
def unitScope : Scope := ⟨unitHost, ∅⟩

/-- The frame of a method without arguments and locals. -/
def emptyFrame : Frame where
  descriptor := ⟨⟨.plain "Game.Main", "Run", [], []⟩, true, [], .plain "System.Int32", ⟨0, [], ∅⟩⟩
  context := {}
  args := []
  locals := []
  offset := 0

/-- A unit whose fields have not been stored. -/
def newUnit : State where
  memory := { heap := { objects := #[{}] } }

/-- The reference to it. -/
def unitRef : ObjectRef := ⟨0, .plain "Game.Unit"⟩

/-- The place of a unit. -/
def unitPlace : FieldRef := ⟨some (.plain "Game.Point"), .plain "Game.Unit", "Place"⟩

/-- A coordinate of a point. -/
def pointX : FieldRef := ⟨some (.plain "System.Int32"), .plain "Game.Point", "X"⟩

/-- The field with the place of a unit is found. -/
theorem fieldNamed_unitPlace :
    unitScope.symbols.fieldNamed "Game.Point Game.Unit::Place" emptyFrame.context =
      .ok (unitHost.fieldHandle unitPlace) := by
  have hparse : FieldRef.parse "Game.Point Game.Unit::Place" = .ok unitPlace := by decide +kernel
  exact SymbolTable.fieldNamed_of_parse hparse (by decide +kernel)

/-- So is the coordinate of a point. -/
theorem fieldNamed_pointX :
    unitScope.symbols.fieldNamed "System.Int32 Game.Point::X" emptyFrame.context =
      .ok (unitHost.fieldHandle pointX) := by
  have hparse : FieldRef.parse "System.Int32 Game.Point::X" = .ok pointX := by decide +kernel
  exact SymbolTable.fieldNamed_of_parse hparse (by decide +kernel)

/-- The coordinate of a new unit is written through the address of its place, and reads as zero. -/
theorem writeThrough_newUnit_lost :
    ∃ t, (Holder.object unitRef).writeThrough unitScope (call unitScope 0)
        "Game.Point Game.Unit::Place" "System.Int32 Game.Point::X" (.int32 7) emptyFrame newUnit =
          (.ok ((), emptyFrame), t) ∧
      (Holder.object unitRef).kept t (unitHost.fieldHandle unitPlace) = none ∧
      ((Holder.object unitRef).readThrough unitScope (call unitScope 0)
        "Game.Point Game.Unit::Place" "System.Int32 Game.Point::X" emptyFrame t).1.map
          (fun r => r.2.stack) = .ok [.int32 0] := by
  have hwritten : ((Holder.object unitRef).writeThrough unitScope (call unitScope 0)
      "Game.Point Game.Unit::Place" "System.Int32 Game.Point::X" (.int32 7) emptyFrame
      newUnit).1.map (fun r => r.2.stack) = .ok [] := by decide +kernel
  have hread : ((Holder.object unitRef).readThrough unitScope (call unitScope 0)
      "Game.Point Game.Unit::Place" "System.Int32 Game.Point::X" emptyFrame
      ((Holder.object unitRef).writeThrough unitScope (call unitScope 0)
        "Game.Point Game.Unit::Place" "System.Int32 Game.Point::X" (.int32 7) emptyFrame
        newUnit).2).1.map (fun r => r.2.stack) = .ok [.int32 0] := by decide +kernel
  have hpoint : (unitHost.findType? "Game.Point").any
      (fun d => d.kind = .valueType && d.initial.isNone) = true := by decide +kernel
  have hfields : (unitHost.accessor? unitPlace).isNone = true ∧
      (unitHost.accessor? pointX).isNone = true := by decide +kernel
  obtain ⟨d, hd, hkind⟩ := (Option.any_eq_true _ _).1 hpoint
  obtain ⟨hkind, hinitial⟩ := Bool.and_eq_true_iff.1 hkind
  have hmakes : TypeHandle.MakesObject ⟨.plain "Game.Point", some d⟩ :=
    TypeHandle.makesObject rfl (of_decide_eq_true hkind) (Option.isNone_iff_eq_none.1 hinitial)
  generalize hrun : (Holder.object unitRef).writeThrough unitScope (call unitScope 0)
    "Game.Point Game.Unit::Place" "System.Int32 Game.Point::X" (.int32 7) emptyFrame newUnit = r
    at hwritten hread
  rcases r with ⟨stop | ⟨⟨⟩, f'⟩, t⟩
  · cases hwritten
  · have hpresent : (Holder.object unitRef).Present newUnit := Nat.zero_lt_one
    obtain ⟨hframe, -, hlost⟩ := Holder.readThrough_writeThrough fieldNamed_unitPlace
      (Option.isNone_iff_eq_none.1 hfields.1) fieldNamed_pointX
      (Option.isNone_iff_eq_none.1 hfields.2) hpresent hrun
    subst hframe
    refine ⟨t, rfl, ?_, hread⟩
    exact (hlost _ _ rfl (SymbolTable.handleOf_plain hd) hmakes
      (Memo.sound_empty _) ⟨nofun, nofun⟩ rfl).1

/-! ## Fields side by side -/

/-- Stores a value in a field of an object. -/
def storeInto (scope : Scope) (callee : Callee) (text : String) (r : ObjectRef) (v : Value) :
    FrameAction Unit := do
  push (.object r)
  push v
  discard (step scope callee ⟨.stfld, .field text, none⟩)

/-- A field is stored by looking it up and writing it. -/
theorem storeInto_apply (r : ObjectRef) :
    storeInto scope callee text r v f = (do
      let h ← scope.field text f.context
      Step.storeField h (.object r) v
      return ((), f) : Machine (Unit × Frame)) := by
  show (step scope callee ⟨.stfld, .field text, none⟩ ((f.pushed (.object r)).pushed v) >>= _ :
    Machine _) = _
  rw [step_storeField rfl rfl, bind_assoc]
  congr 1
  funext h
  rw [bind_assoc]
  rfl

/-- A field that is known is pushed as it is kept, or as its default. -/
theorem Holder.pushField_of_known {holder : Holder} {address : Bool}
    (hnamed : scope.symbols.fieldNamed text f.context = .ok h) (ha : h.accessor = none)
    (hknown : h.Known s.memo) :
    holder.pushField scope callee address text f s = match holder.kept s h with
      | some v => (.ok ((), f.pushed v), s)
      | none => (do return ((), f.pushed (← Step.fieldDefault scope h)) :
          Machine (Unit × Frame)) s := by
  rw [pushField_apply, Machine.bind_apply, Scope.field_of_known hnamed ha hknown]
  dsimp only
  rw [Machine.bind_apply, read_apply holder ha]
  cases holder.kept s h with
  | some v => rfl
  | none => exact (Machine.bind_apply _ _ s).symm

/-- **A store between two loads.** The field that was stored in gives the value. Another field of
the object gives what it gave before, or once more a default, unless it has the same bare name:
then it gives the value too, whichever types declare the two. Other objects do not change. -/
theorem pushField_storeInto {other : String} {h' : FieldHandle} {f' f'' : Frame} {r : ObjectRef}
    {u : State} (hnamed : scope.symbols.fieldNamed text f.context = .ok h)
    (ha : h.accessor = none) (hnamed' : scope.symbols.fieldNamed other f.context = .ok h')
    (ha' : h'.accessor = none)
    (hload : (Holder.object r).pushField scope callee false other f s = (.ok ((), f'), t))
    (hr : t.memory.heap.hasObject r)
    (hstore : storeInto scope callee text r v f t = (.ok ((), f''), u)) :
    f'' = f ∧
    (∀ w, s.memory.heap.field? r h'.name = some w → f' = f.pushed w ∧ t.memory = s.memory) ∧
    (Holder.object r).pushField scope callee false text f u = (.ok ((), f.pushed v), u) ∧
    (Holder.object r).pushField scope callee false other f u =
      (if h'.name = h.name then (.ok ((), f.pushed v), u)
      else match t.memory.heap.field? r h'.name with
        | some w => (.ok ((), f.pushed w), u)
        | none => (do return ((), f.pushed (← Step.fieldDefault scope h')) :
            Machine (Unit × Frame)) u) ∧
    ∀ o : ObjectRef, o.address ≠ r.address →
      u.memory.heap.content o = t.memory.heap.content o := by
  rw [Holder.pushField_apply] at hload
  obtain ⟨h₁, s₁, hfield', hload⟩ := Machine.bind_eq_ok.1 hload
  obtain ⟨w', s₂, hread, hload⟩ := Machine.bind_eq_ok.1 hload
  cases hload
  rw [storeInto_apply] at hstore
  obtain ⟨h₂, t₁, hfield, hstore⟩ := Machine.bind_eq_ok.1 hstore
  obtain ⟨_, t₂, hstored, hstore⟩ := Machine.bind_eq_ok.1 hstore
  cases hstore
  obtain ⟨hnamed₁, hgrows', hstate', hknown'⟩ := Scope.field_eq_ok hfield'
  obtain ⟨hnamed₂, hgrows, hstate, hknown⟩ := Scope.field_eq_ok hfield
  cases hnamed'.symm.trans hnamed₁
  cases hnamed.symm.trans hnamed₂
  obtain ⟨_, ⟨⟩, rfl⟩ := storeField_eq_ok ha hstored
  have hmemory₁ : s₁.memory = s.memory := by rw [hstate']
  have hmemory : t₁.memory = t.memory := by rw [hstate]
  have hr₁ : t₁.memory.heap.hasObject r := by rwa [hmemory]
  have hgrows₁ : s₁.memo.Extends t.memo := by
    have hextends : s₁.memo.Extends ((Holder.object r).read scope h' s₁).2.memo :=
      Holder.extends_read _ ha'
    rwa [hread] at hextends
  refine ⟨rfl, fun w hw => ?_, ?_, ?_, fun o ho => ?_⟩
  · have hsame : (Holder.object r).kept s₁ h' = (Holder.object r).kept s h' :=
      Holder.kept_congr hmemory₁ (by rw [hstate'])
    have hkept : (Holder.object r).kept s₁ h' = some w := hsame.trans hw
    rw [Holder.read_apply _ ha', hkept] at hread
    cases hread
    exact ⟨rfl, hmemory₁⟩
  · have hknown : h.Known (t₁.setField r h.name v).memo := hknown ha
    have hkept : (Holder.object r).kept (t₁.setField r h.name v) h = some v :=
      t₁.memory.heap.field?_setField_self r h.name v hr₁
    rw [Holder.pushField_of_known hnamed ha hknown, hkept]
  · have hknown' : h'.Known (t₁.setField r h.name v).memo :=
      ((hknown' ha').mono hgrows₁).mono hgrows
    rw [Holder.pushField_of_known hnamed' ha' hknown']
    have hkept : (Holder.object r).kept (t₁.setField r h.name v) h' =
        (t₁.memory.heap.setField r h.name v).field? r h'.name := rfl
    rw [hkept]
    by_cases hname : h'.name = h.name
    · rw [if_pos hname, hname, t₁.memory.heap.field?_setField_self r h.name v hr₁]
    · rw [if_neg hname, t₁.memory.heap.field?_setField_of_ne r v hr₁ hname, hmemory]
      rfl
  · show (t₁.memory.heap.setField r h.name v).content o = _
    rw [t₁.memory.heap.content_setField_of_ne h.name v ho, hmemory]

/-- The number of a unit. -/
def unitId : FieldRef := ⟨some (.plain "System.Int32"), .plain "Game.Unit", "Id"⟩

/-- The number that the base of units declares. -/
def baseId : FieldRef := ⟨some (.plain "System.Int32"), .plain "Game.Base", "Id"⟩

/-- The number of a unit is found. -/
theorem fieldNamed_unitId :
    unitScope.symbols.fieldNamed "System.Int32 Game.Unit::Id" emptyFrame.context =
      .ok (unitHost.fieldHandle unitId) := by
  have hparse : FieldRef.parse "System.Int32 Game.Unit::Id" = .ok unitId := by decide +kernel
  exact SymbolTable.fieldNamed_of_parse hparse (by decide +kernel)

/-- So is that of its base. -/
theorem fieldNamed_baseId :
    unitScope.symbols.fieldNamed "System.Int32 Game.Base::Id" emptyFrame.context =
      .ok (unitHost.fieldHandle baseId) := by
  have hparse : FieldRef.parse "System.Int32 Game.Base::Id" = .ok baseId := by decide +kernel
  exact SymbolTable.fieldNamed_of_parse hparse (by decide +kernel)

/-- A unit whose base has the number one. -/
def numberedUnit : State where
  memory := { heap := { objects := #[{ fields := .ofList [("Id", .int32 1)] }] } }

/-- The number of the base is one before the number of the unit is stored, and two afterwards. -/
theorem pushField_storeInto_clobbered :
    (unitHost.fieldHandle unitId).key ≠ (unitHost.fieldHandle baseId).key ∧
    ∃ t u, (Holder.object unitRef).pushField unitScope (call unitScope 0) false
        "System.Int32 Game.Base::Id" emptyFrame numberedUnit =
          (.ok ((), emptyFrame.pushed (.int32 1)), t) ∧
      storeInto unitScope (call unitScope 0) "System.Int32 Game.Unit::Id" unitRef (.int32 2)
        emptyFrame t = (.ok ((), emptyFrame), u) ∧
      (Holder.object unitRef).pushField unitScope (call unitScope 0) false
        "System.Int32 Game.Base::Id" emptyFrame u =
          (.ok ((), emptyFrame.pushed (.int32 2)), u) := by
  refine ⟨by decide +kernel, ?_⟩
  have hloaded : ((Holder.object unitRef).pushField unitScope (call unitScope 0) false
      "System.Int32 Game.Base::Id" emptyFrame numberedUnit).1.map (fun r => r.2.stack) =
        .ok [.int32 1] := by decide +kernel
  have hthere : ((Holder.object unitRef).pushField unitScope (call unitScope 0) false
      "System.Int32 Game.Base::Id" emptyFrame numberedUnit).2.memory.heap.objects.size = 1 := by
    decide +kernel
  have hstored : (storeInto unitScope (call unitScope 0) "System.Int32 Game.Unit::Id" unitRef
      (.int32 2) emptyFrame ((Holder.object unitRef).pushField unitScope (call unitScope 0) false
        "System.Int32 Game.Base::Id" emptyFrame numberedUnit).2).1.map (fun r => r.2.stack) =
          .ok [] := by decide +kernel
  have hfields : (unitHost.accessor? unitId).isNone = true ∧
      (unitHost.accessor? baseId).isNone = true := by decide +kernel
  generalize hload : (Holder.object unitRef).pushField unitScope (call unitScope 0) false
    "System.Int32 Game.Base::Id" emptyFrame numberedUnit = r at hloaded hthere hstored
  rcases r with ⟨stop | ⟨⟨⟩, f'⟩, t⟩
  · cases hloaded
  · generalize hstore : storeInto unitScope (call unitScope 0) "System.Int32 Game.Unit::Id"
      unitRef (.int32 2) emptyFrame t = r at hstored
    rcases r with ⟨stop | ⟨⟨⟩, f''⟩, u⟩
    · cases hstored
    · have hr : t.memory.heap.hasObject unitRef := Nat.lt_of_lt_of_eq Nat.zero_lt_one hthere.symm
      obtain ⟨hframe, hbefore, -, hafter, -⟩ := pushField_storeInto fieldNamed_unitId
        (Option.isNone_iff_eq_none.1 hfields.1) fieldNamed_baseId
        (Option.isNone_iff_eq_none.1 hfields.2) hload hr hstore
      have hone : numberedUnit.memory.heap.field? unitRef
          (unitHost.fieldHandle baseId).name = some (.int32 1) := by decide +kernel
      subst hframe
      rw [(hbefore _ hone).1]
      exact ⟨t, u, rfl, hstore, hafter⟩

end Hotswap
