import Hotswap.Proofs.Machine.Fields
import Hotswap.Proofs.Symbols.Hierarchy

/-!
# Instances of a class

Two instructions ask whether an object has a type: one drops an object that has not, the other
fails. The type is named by a text, closed in the frame and looked up (`Scope.typeNamed`); the
answer is that of the test of the symbols.

`instanceOn` says what the answer is for an object and a closed type other than the one of all
objects. The object is of every type that it is found to be of, but a type that its class reaches
only through bases with placeholders is not found (`instanceOn_subBox`).
-/

namespace Hotswap

open FrameAction

variable {scope : Scope} {callee : Callee} {f : Frame} {s t : State} {text : String} {v : Value}
  {r : ObjectRef} {target : TypeHandle}

/-! ## The instructions -/

/-- Looks up the type that a text names. -/
def Scope.typeNamed (scope : Scope) (text : String) (cx : GenericContext) : Machine TypeHandle := do
  let type ← Machine.ofExcept ((TypeName.parse text).mapError .format)
  let closed ← Machine.ofExcept (cx.close type)
  Machine.resolve (scope.symbols.resolveType closed)

/-- A computation on the state leaves the frame as it is. -/
theorem ofMachine_bind {α β : Type} (m : Machine α) (k : α → FrameAction β) :
    (ofMachine m >>= k) f = (do k (← m) f : Machine (β × Frame)) := by
  show (ofMachine m f >>= _ : Machine _) = _
  unfold ofMachine
  rw [bind_assoc]
  rfl

/-- The type of an instruction is read from its text and closed in the frame. -/
theorem closedType_apply :
    closedType text f = (do
      let type ← Machine.ofExcept ((TypeName.parse text).mapError .format)
      return (← Machine.ofExcept (f.context.close type), f) : Machine (TypeName × Frame)) := by
  unfold closedType
  cases TypeName.parse text <;> rfl

/-- An instruction on a value and a type looks the type up first. -/
theorem popWithType_bind {α : Type} {i : Instruction} (hi : i.operand = .type text)
    (k : Value × TypeHandle → FrameAction α) :
    (Step.popWithType scope i >>= k) (f.pushed v) = (do
      k (v, ← scope.typeNamed text f.context) f : Machine (α × Frame)) := by
  have htype : typeOperand i = closedType text := by
    unfold typeOperand
    rw [hi]
  show ((typeOperand i >>= fun type => ofMachine (Machine.resolve (scope.symbols.resolveType type))
    >>= fun handle => pure (v, handle)) f >>= _ : Machine _) = _
  unfold Scope.typeNamed
  rw [htype]
  show ((closedType text f >>= _ : Machine _) >>= _ : Machine _) = _
  rw [closedType_apply]
  simp only [bind_assoc, pure_bind, ofMachine_bind]
  rfl

/-- An instruction that drops a value without the type. -/
theorem step_isInstance {i : Instruction} (hop : i.opcode.action = .effect .isInstance)
    (hi : i.operand = .type text) :
    step scope callee i (f.pushed v) = (do
      let target ← scope.typeNamed text f.context
      return (.next, f.pushed (if scope.symbols.isInstance v target then v else .null)) :
        Machine (Flow × Frame)) := by
  unfold step
  rw [hop]
  show ((Step.popWithType scope i >>= fun p =>
    push (if scope.symbols.isInstance p.1 p.2 then p.1 else .null)) >>= fun _ => pure Flow.next :
      FrameAction Flow) (f.pushed v) = _
  rw [bind_assoc, popWithType_bind hi]
  rfl

/-- An instruction that casts a value to the type. -/
theorem step_cast {i : Instruction} (hop : i.opcode.action = .effect .cast)
    (hi : i.operand = .type text) :
    step scope callee i (f.pushed v) = (do
      let target ← scope.typeNamed text f.context
      let w ← Machine.ofExcept (scope.symbols.cast v target)
      return (.next, f.pushed w) : Machine (Flow × Frame)) := by
  unfold step
  rw [hop]
  show ((Step.popWithType scope i >>= fun p => ofExcept (scope.symbols.cast p.1 p.2) >>= push)
    >>= fun _ => pure Flow.next : FrameAction Flow) (f.pushed v) = _
  simp only [bind_assoc, popWithType_bind hi, FrameAction.ofExcept, ofMachine_bind]
  rfl

section

variable (htype : scope.typeNamed text f.context s = (.ok target, t)) (next : Option UInt32)

include htype

/-- The test pushes the value, or null if it is not of the type. -/
theorem step_isInstance_of_typeNamed :
    step scope callee ⟨.isinst, .type text, next⟩ (f.pushed v) s =
      (.ok (.next, f.pushed (if scope.symbols.isInstance v target then v else .null)), t) := by
  rw [step_isInstance rfl rfl, Machine.bind_apply, htype]
  rfl

/-- The cast pushes what the value is cast to, or fails. -/
theorem step_cast_of_typeNamed :
    step scope callee ⟨.castclass, .type text, next⟩ (f.pushed v) s =
      match scope.symbols.cast v target with
      | .ok w => (.ok (.next, f.pushed w), t)
      | .error e => (.error (.failed e), t) := by
  rw [step_cast rfl rfl, Machine.bind_apply, htype]
  dsimp only
  cases scope.symbols.cast v target <;> rfl

end

/-! ## The test on an object -/

namespace SymbolTable

variable {symbols : SymbolTable}

/-- An object is tested by following the bases of its class, unless the type is `System.Object`. -/
theorem isInstance_object (hobject : target.name.name? ≠ some "System.Object") :
    symbols.isInstance (.object r) target = symbols.derives target.name hierarchyDepth r.type := by
  unfold isInstance
  exact if_neg hobject

/-- An object is not a number: a cast tests it, and converts nothing. -/
theorem cast_object :
    symbols.cast (.object r) target =
      if symbols.isInstance (.object r) target then .ok (.object r)
      else .error (.invalidCast r.type.render target.name.render) := by
  unfold cast
  rfl

end SymbolTable

/-- What the test says of an object and a type, and what the two instructions do that name the type
by a text. -/
structure InstanceOn (scope : Scope) (callee : Callee) (f : Frame) (s : State) (r : ObjectRef)
    (target : TypeHandle) : Prop where
  /-- The type is found if it is reached by the registered bases, as they are written. -/
  isInstance_iff : scope.symbols.isInstance (.object r) target = true ↔
    scope.symbols.Reaches r.type target.name
  /-- What is found is right: the class of the object inherits from the type. -/
  inherits (h : scope.symbols.isInstance (.object r) target = true) :
    scope.symbols.Inherits r.type target.name
  /-- If bases are classes, what is found is the class itself and the types that classes of its
  hierarchy have for their registered bases. -/
  isInstance_iff_recognises (hnamed : scope.symbols.HasNamedBases) :
    scope.symbols.isInstance (.object r) target = true ↔
      scope.symbols.Recognises r.type target.name
  /-- Everything is found if no class of the hierarchy has a base with placeholders. -/
  isInstance_iff_inherits (hbases : ∀ d b, scope.symbols.Inherits r.type d →
      scope.symbols.base? d = some b → b.hasPlaceholders = false) :
    scope.symbols.isInstance (.object r) target = true ↔ scope.symbols.Inherits r.type target.name
  /-- The object stays if the type is found. -/
  passes {text : String} {t : State} (htype : scope.typeNamed text f.context s = (.ok target, t))
      (h : scope.symbols.isInstance (.object r) target = true) (next : Option UInt32) :
    step scope callee ⟨.isinst, .type text, next⟩ (f.pushed (.object r)) s =
        (.ok (.next, f.pushed (.object r)), t) ∧
      step scope callee ⟨.castclass, .type text, next⟩ (f.pushed (.object r)) s =
        (.ok (.next, f.pushed (.object r)), t)
  /-- If it is not, one instruction leaves null in its place and the other fails. -/
  refuses {text : String} {t : State} (htype : scope.typeNamed text f.context s = (.ok target, t))
      (h : scope.symbols.isInstance (.object r) target = false) (next : Option UInt32) :
    step scope callee ⟨.isinst, .type text, next⟩ (f.pushed (.object r)) s =
        (.ok (.next, f.pushed .null), t) ∧
      step scope callee ⟨.castclass, .type text, next⟩ (f.pushed (.object r)) s =
        (.error (.failed (.invalidCast r.type.render target.name.render)), t)

/-- **Instances of a closed type.** In a hierarchy of short chains an object is of every type that
it is found to be of. It is found to be of all types that its class inherits from if they are
reached through bases without placeholders. -/
theorem instanceOn (hshort : scope.symbols.HasShortChains)
    (hobject : target.name.name? ≠ some "System.Object")
    (hclosed : target.name.hasPlaceholders = false) : InstanceOn scope callee f s r target := by
  have hreaches : scope.symbols.isInstance (.object r) target = true ↔
      scope.symbols.Reaches r.type target.name := by
    rw [SymbolTable.isInstance_object hobject]
    exact SymbolTable.derives_iff_reaches hshort
  have hright : scope.symbols.isInstance (.object r) target = true →
      scope.symbols.Inherits r.type target.name := fun h =>
    (SymbolTable.recognises_of_reaches (hreaches.1 h)).inherits hclosed
  constructor
  case isInstance_iff => exact hreaches
  case inherits => exact hright
  case isInstance_iff_recognises =>
    intro hnamed
    rw [SymbolTable.isInstance_object hobject]
    exact SymbolTable.derives_iff_recognises hshort hnamed
  case isInstance_iff_inherits =>
    intro hbases
    refine ⟨hright, fun h => hreaches.2 ?_⟩
    exact SymbolTable.reaches_of_inherits hbases h
  case passes =>
    intro text t htype h next
    rw [step_isInstance_of_typeNamed htype, step_cast_of_typeNamed htype,
      SymbolTable.cast_object, h]
    exact ⟨rfl, rfl⟩
  case refuses =>
    intro text t htype h next
    rw [step_isInstance_of_typeNamed htype, step_cast_of_typeNamed htype,
      SymbolTable.cast_object, h]
    exact ⟨rfl, rfl⟩

/-! ## A base with a placeholder -/

/-- A type of boxes. -/
def boxOf (item : TypeName) : TypeName := .named "Game.Box`1" [item]

/-- A type of boxes of its own, derived from the boxes of the same items. -/
def subBoxOf (item : TypeName) : TypeName := .named "Game.Sub`1" [item]

/-- A host with boxes, boxes derived from them, and a class derived from boxes of integers. -/
def derivedHost : SymbolTable where
  modules := [{
    name := "Game"
    types := .ofList [("Game.Box`1", { name := "Game.Box`1", kind := .classType }),
      ("Game.Sub`1", { name := "Game.Sub`1", kind := .classType
                       base := some (boxOf (.typeParam 0)) }),
      ("Game.IntBox", { name := "Game.IntBox", kind := .classType
                        base := some (boxOf (.plain "System.Int32")) }),
      ("System.Int32", { name := "System.Int32", kind := .valueType })] }]

/-- Whatever is derived in that host is derived from a type of boxes or from boxes of integers. -/
theorem base?_derivedHost {c b : TypeName} (h : derivedHost.base? c = some b) :
    b = boxOf (.typeParam 0) ∨ b = boxOf (.plain "System.Int32") := by
  obtain ⟨name, -, h⟩ := Option.bind_eq_some_iff.1 h
  obtain ⟨d, hd, hb⟩ := Option.bind_eq_some_iff.1 h
  have hbases : ∀ m ∈ derivedHost.modules, m.types.Holds fun d => d.base = none ∨
      d.base = some (boxOf (.typeParam 0)) ∨ d.base = some (boxOf (.plain "System.Int32")) := by
    show ∀ m ∈ derivedHost.modules, ∀ e ∈ m.types.entries, _
    decide +kernel
  rcases SymbolTable.holds_findType? hbases hd with hnone | hopen | hclosed
  · rw [hnone] at hb
    cases hb
  · exact .inl (Option.some.inj (hb.symm.trans hopen))
  · exact .inr (Option.some.inj (hb.symm.trans hclosed))

/-- These have no bases themselves, so every chain ends after two links. -/
theorem hasShortChains_derivedHost : derivedHost.HasShortChains := by
  intro c
  have htwo : derivedHost.baseAfter 2 c = none := by
    cases hb : derivedHost.base? c with
    | none =>
      rw [SymbolTable.baseAfter, hb]
      rfl
    | some b =>
      rw [SymbolTable.baseAfter, hb]
      obtain rfl | rfl := base?_derivedHost hb <;> decide +kernel
  show derivedHost.baseAfter (2 + 62) c = none
  rw [SymbolTable.baseAfter_add, htwo]
  rfl

/-- A class that is derived from boxes of integers is found to be one, and a type of boxes with a
placeholder in its base is not, though it is derived from them with integers for items. -/
theorem instanceOn_subBox :
    ∃ target t, Scope.typeNamed ⟨derivedHost, ∅⟩ "Game.Box`1<System.Int32>" emptyFrame.context {} =
        (.ok target, t) ∧
      target.name = boxOf (.plain "System.Int32") ∧
      derivedHost.Inherits (.plain "Game.IntBox") target.name ∧
      derivedHost.Inherits (subBoxOf (.plain "System.Int32")) target.name ∧
      step ⟨derivedHost, ∅⟩ (call ⟨derivedHost, ∅⟩ 0)
          ⟨.castclass, .type "Game.Box`1<System.Int32>", none⟩
          (emptyFrame.pushed (.object ⟨0, .plain "Game.IntBox"⟩)) {} =
        (.ok (.next, emptyFrame.pushed (.object ⟨0, .plain "Game.IntBox"⟩)), t) ∧
      step ⟨derivedHost, ∅⟩ (call ⟨derivedHost, ∅⟩ 0)
          ⟨.isinst, .type "Game.Box`1<System.Int32>", none⟩
          (emptyFrame.pushed (.object ⟨0, subBoxOf (.plain "System.Int32")⟩)) {} =
        (.ok (.next, emptyFrame.pushed .null), t) := by
  have hname : (Scope.typeNamed ⟨derivedHost, ∅⟩ "Game.Box`1<System.Int32>" emptyFrame.context
      {}).1.map (·.name) = .ok (boxOf (.plain "System.Int32")) := by decide +kernel
  generalize htype : Scope.typeNamed ⟨derivedHost, ∅⟩ "Game.Box`1<System.Int32>" emptyFrame.context
    {} = found at hname
  obtain ⟨stop | target, t⟩ := found
  · cases hname
  have hname : target.name = boxOf (.plain "System.Int32") := Except.ok.inj hname
  have hon (c : TypeName) : InstanceOn ⟨derivedHost, ∅⟩ (call ⟨derivedHost, ∅⟩ 0) emptyFrame {}
      ⟨0, c⟩ target := by
    refine instanceOn hasShortChains_derivedHost ?_ ?_ <;> rw [hname] <;> decide +kernel
  have hfound (c : TypeName) : derivedHost.isInstance (.object ⟨0, c⟩) target =
      derivedHost.derives (boxOf (.plain "System.Int32")) SymbolTable.hierarchyDepth c := by
    rw [← hname]
    exact SymbolTable.isInstance_object (by rw [hname]; decide +kernel)
  refine ⟨target, t, rfl, hname, ?_, ?_, ?_, ?_⟩
  · refine (hon _).inherits ?_
    show derivedHost.isInstance _ target = true
    rw [hfound]
    decide +kernel
  · refine .single ?_
    rw [hname]
    decide +kernel
  · refine ((hon _).passes htype ?_ none).2
    show derivedHost.isInstance _ target = true
    rw [hfound]
    decide +kernel
  · refine ((hon _).refuses htype ?_ none).1
    show derivedHost.isInstance _ target = false
    rw [hfound]
    decide +kernel

end Hotswap
