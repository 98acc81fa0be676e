import Hotswap.Engine
import Hotswap.Proofs.Machine.Calls
import Hotswap.Proofs.Machine.Run
import Hotswap.Proofs.Result

/-!
# No placeholder in a run

The body of a generic method is written with the placeholders of its parameters, and so are the
types of its locals and the references in it. What runs is closed: `Engine.closed_of_invoke` says
that an invocation that begins without placeholders never meets one, in the generic arguments of a
frame, in the class of an object, in the type of the items of an array, in a handle, or in the
method of a delegate. The host has to do its part: the values that its types start as, its fields
and its methods must stay without placeholders as long as they are called so (`SymbolTable.Over`).

The types without placeholders are a family in the sense of `IsFamily`, because replacing every
placeholder by such a type leaves none. The rest is what is known of a run over a family of types.
-/

namespace Hotswap

/-! ## Closed types -/

/-- A type without placeholders. -/
def TypeName.IsClosed (t : TypeName) : Prop := t.hasPlaceholders = false

/-- The types without placeholders are a family. -/
theorem TypeName.isFamily_isClosed : IsFamily IsClosed where
  substitute htype hmethod h :=
    closed_of_substitute (anyPlaceholders_eq_false_iff.2 htype)
      (anyPlaceholders_eq_false_iff.2 hmethod) _ h
  args h := anyPlaceholders_eq_false_iff.1 (anyPlaceholders_args h)
  element h := by
    unfold IsClosed at h
    rw [hasPlaceholders] at h
    exact h

/-- A signature is over it exactly if none of its types has a placeholder. -/
theorem Signature.over_isClosed_iff {s : Signature} :
    s.Over TypeName.IsClosed ↔ s.hasPlaceholders = false := by
  unfold hasPlaceholders
  rw [Bool.or_eq_false_iff, Bool.or_eq_false_iff, TypeName.anyPlaceholders_eq_false_iff,
    TypeName.anyPlaceholders_eq_false_iff]
  exact ⟨fun h => ⟨⟨h.declaringType, h.genericArgs⟩, h.parameters⟩,
    fun h => ⟨h.1.1, h.1.2, h.2⟩⟩

/-- What stands for placeholders is over it exactly if it has none itself. -/
theorem GenericContext.over_isClosed_iff {cx : GenericContext} :
    cx.Over TypeName.IsClosed ↔ cx.hasPlaceholders = false := by
  unfold hasPlaceholders
  rw [Bool.or_eq_false_iff, TypeName.anyPlaceholders_eq_false_iff,
    TypeName.anyPlaceholders_eq_false_iff]
  exact ⟨fun h => ⟨h.typeArgs, h.methodArgs⟩, fun h => ⟨h.1, h.2⟩⟩

/-! ## Engines -/

/-- A module of the host that stays over a family of types. -/
structure Module.Over (P : TypeName → Prop) (m : Module) : Prop where
  /-- The values of its types start over the family. -/
  types : m.types.Holds (TypeDefinition.Over P)
  /-- Its methods stay over the family. -/
  methods : m.methods.Holds fun d => HostCode.Over P d.code
  /-- Its fields stay over the family. -/
  fields : m.fields.Holds (Accessor.Over P)

/-- A host stays over a family if its modules do. -/
theorem SymbolTable.over_of_modules {P : TypeName → Prop} {symbols : SymbolTable}
    (h : ∀ m ∈ symbols.modules, m.Over P) : symbols.Over P where
  types _ _ hd := holds_findType? (fun m hm => (h m hm).types) hd
  fields _ _ ha := holds_findField? (fun m hm => (h m hm).fields) ha
  methods _ _ hcode := holds_code? (fun m hm => (h m hm).methods) hcode

/-- What the engine runs begins in its state and leaves it another one. -/
theorem Engine.run_eq {α : Type} (e : Engine) (m : Machine α) :
    e.run m = ((m e.state).1, ⟨e.symbols, (m e.state).2⟩) := rfl

/-- An engine whose host stays over a family of types and whose state is over it. -/
structure Engine.Over (P : TypeName → Prop) (e : Engine) : Prop where
  /-- The host stays over the family. -/
  symbols : e.symbols.Over P
  /-- The state is over the family. -/
  state : e.state.Over P

namespace Engine.Over

variable {P : TypeName → Prop} {e : Engine}

/-- An engine begins over every family that its host stays over. -/
theorem start {symbols : SymbolTable} (h : symbols.Over P) (c : Catalogue) :
    (Engine.start c symbols).Over P :=
  ⟨h, State.over_empty c⟩

/-- The scope of such an engine is over the family. -/
theorem scope (hP : IsFamily P) (he : e.Over P) : e.scope.Over P := ⟨hP, he.symbols⟩

end Engine.Over

/-- **No placeholder leaks into a run.** An engine without placeholders, whatever catalogue is in
force, is asked to invoke a signature without them, with such a receiver and such arguments. Then
every call that occurs, at whatever depth, is without placeholders, and so is every frame that its
body comes to, with the state that it is in. The result and the engine afterwards are without
placeholders again. -/
theorem Engine.closed_of_invoke {e : Engine} (he : e.Over TypeName.IsClosed) (fuel : Nat)
    {s : Signature} (hs : s.hasPlaceholders = false) {receiver : Option Value}
    (hreceiver : ∀ v ∈ receiver, v.Over TypeName.IsClosed) {args : List Value}
    (hargs : ∀ v ∈ args, v.Over TypeName.IsClosed) :
    (∀ m t, e.scope.method (.ofSignature s none) e.state = (.ok m, t) →
      (∀ n c, Call.Occurs e.scope fuel ⟨m, receiver, args, t⟩ n c → c.Over TypeName.IsClosed) ∧
      ∀ n c, Call.Occurs e.scope fuel ⟨m, receiver, args, t⟩ (n + 1) c →
        ∀ f u, c.Reaches e.scope n f u → f.context.hasPlaceholders = false ∧
          f.Over TypeName.IsClosed ∧ u.Over TypeName.IsClosed) ∧
    (∀ v, (e.invoke fuel s receiver args).1 = .ok v → v.Over TypeName.IsClosed) ∧
    (e.invoke fuel s receiver args).2.Over TypeName.IsClosed := by
  have hP := TypeName.isFamily_isClosed
  have hscope := he.scope hP
  have hs := Signature.over_isClosed_iff.2 hs
  refine ⟨fun m t hm => ?_, ?_⟩
  · have hmethod := alike_method_ofSignature hscope hs e.state e.state (.refl _) he.state
    rw [hm] at hmethod
    have htop : Call.Over TypeName.IsClosed ⟨m, receiver, args, t⟩ :=
      ⟨(hmethod.holds rfl).1, hreceiver, hargs, hmethod.stateOver⟩
    refine ⟨fun n c hc => htop.of_occurs hscope hc, fun n c hc f u hf => ?_⟩
    obtain ⟨hframe, hstate⟩ := (htop.of_occurs hscope hc).of_reaches hscope hf
    exact ⟨GenericContext.over_isClosed_iff.1 hframe.context, hframe, hstate⟩
  · have hrun := alike_invoke hscope e.symbols.respects_eq fuel hs hreceiver hargs e.state e.state
      (.refl _) he.state
    rw [Engine.invoke, Engine.run_eq]
    exact ⟨fun v hv => hrun.holds hv, he.symbols, hrun.stateOver⟩

/-- A descriptor of a static method without parameters that gives an array. -/
def arrayDescriptor (name : Signature) (locals : List TypeName)
    (instructions : List (UInt32 × Instruction)) : Descriptor where
  name
  isStatic := true
  parameters := []
  returnType := .plain "System.Array"
  body := { maxStack := 1, locals, instructions := .ofList instructions }

/-- A descriptor that gives the array that a method gives. -/
def forwardArray (name : Signature) (text : String) : Descriptor :=
  arrayDescriptor name [] [(0, ⟨.call, .method text, some 1⟩), (1, ⟨.ret, .none, none⟩)]

/-- What comes of such a descriptor is what comes of the method. -/
theorem outcome_forwardArray {scope : Scope} {text : String} {ref : MethodRef}
    {cx : GenericContext} {b : BoundMethod} {d : Descriptor}
    (hparse : MethodRef.parse text = .ok ref) (hname : ref.signature.name ≠ "Invoke")
    (hb : BoundMethod.ofRef ref cx = .ok b) (hd : scope.catalogue.find? b.keys = some d)
    (hstatic : d.isStatic = true) (hvoid : d.returnsVoid = false)
    (hparams : b.signature.parameters = []) (callee : Callee) (fuel : Nat)
    (name signature : Signature) (s : State) :
    Call.outcome scope callee (fuel + 2)
        ⟨⟨signature, cx, .patched (forwardArray name text)⟩, none, [], s⟩ =
      callee ⟨b.signature, b.context, .patched d⟩ none [] s := by
  let i : Instruction := ⟨.call, .method text, some 1⟩
  let f : Frame := ⟨forwardArray name text, cx, [], [], [], 0, false⟩
  have hargs : b.signature.parameters.length ≤ f.stack.length := by
    rw [hparams]
    exact le_rfl
  have hperform : perform scope callee i .call f s = (do
      let v ← callee ⟨b.signature, b.context, .patched d⟩ none []
      return ((), f.pushed v) : Machine (Unit × Frame)) s := by
    have hcall : perform scope callee i .call f s = _ :=
      perform_call_static rfl hparse hname hb hd hstatic hvoid hargs
    rw [hparams] at hcall
    exact hcall
  rw [Machine.bind_apply] at hperform
  have hstart : Frame.start scope (forwardArray name text) cx [] s = (.ok f, s) :=
    Frame.start_eq cx rfl rfl rfl
  show execute scope callee (fuel + 2) (forwardArray name text) cx [] s = _
  rw [execute_eq (fuel + 2) rfl hstart rfl]
  rcases hcall : callee ⟨b.signature, b.context, .patched d⟩ none [] s with ⟨stop | v, s'⟩
  · rw [hcall] at hperform
    rw [loop_effect_error (fuel + 1) rfl rfl hperform]
  · rw [hcall] at hperform
    rw [loop_effect (fuel + 1) rfl rfl rfl rfl hperform rfl, loop_ret fuel rfl rfl rfl rfl]

/-- `Many` makes an array of its parameter. -/
def manyDescriptor : Descriptor :=
  arrayDescriptor ⟨.plain "Main", "Many", [.methodParam 0], []⟩ [.methodParam 0]
    [(0, ⟨.ldcI42, .none, some 1⟩), (1, ⟨.newarr, .type "!!0", some 2⟩), (2, ⟨.ret, .none, none⟩)]

/-- `Make` of a box asks `Many` for an array of what the box is of. -/
def makeDescriptor : Descriptor :=
  forwardArray ⟨.named "Box`1" [.typeParam 0], "Make", [], []⟩ "System.Array Main::Many<!0>()"

/-- `Run` asks a box of integers. -/
def runDescriptor : Descriptor :=
  forwardArray ⟨.plain "Main", "Run", [], []⟩ "System.Array Box`1<System.Int32>::Make()"

/-- The three descriptors, and a host that has the integers. -/
def arrayEngine : Engine :=
  .start
    { methods := .ofList [
        ("Main::Many<!!0>()", manyDescriptor), ("Box`1<!0>::Make()", makeDescriptor),
        ("Main::Run()", runDescriptor)] }
    { modules := [{
        name := "Game"
        types := .ofList [("System.Int32",
          { name := "System.Int32", kind := .valueType, initial := some (pure (.int32 0)) })] }] }

/-- There are no placeholders in what the engine keeps and its host gives. -/
theorem over_arrayEngine : arrayEngine.Over TypeName.IsClosed := by
  refine .start (SymbolTable.over_of_modules fun m hm => ?_) _
  cases List.mem_singleton.1 hm
  refine ⟨?_, .empty, .empty⟩
  refine Table.Holds.insert .empty ?_
  rintro _ ⟨⟩
  exact fun m hm => ⟨trivial, hm⟩

/-- A call of a static method without parameters in the state that the engine begins with. -/
def arrayCall (s : Signature) (d : Descriptor) : Call :=
  ⟨⟨s, .ofSignature s, .patched d⟩, none, [], arrayEngine.state⟩

/-- The closed signature of `Run`. -/
def runArrays : Signature := ⟨.plain "Main", "Run", [], []⟩

/-- `Make` of a box of integers. -/
def makeIntegers : Signature := ⟨.named "Box`1" [.plain "System.Int32"], "Make", [], []⟩

/-- `Many` of integers. -/
def manyIntegers : Signature := ⟨.plain "Main", "Many", [.plain "System.Int32"], []⟩

/-- `Run` calls `Make` of a box of integers. -/
theorem makes_makeIntegers :
    (arrayCall runArrays runDescriptor).Makes arrayEngine.scope 6
      (arrayCall makeIntegers makeDescriptor) := by
  have hparse : MethodRef.parse "System.Array Box`1<System.Int32>::Make()" =
      .ok ⟨some (.plain "System.Array"), makeIntegers⟩ := by
    decide +kernel
  have hb : BoundMethod.ofRef ⟨some (.plain "System.Array"), makeIntegers⟩
      (.ofSignature runArrays) =
      .ok ⟨makeIntegers, makeDescriptor.name, .ofSignature makeIntegers,
        some (.plain "System.Array")⟩ := by
    decide +kernel
  exact ⟨.bound, Call.makesBy_of_outcome fun callee => .of_eq <| outcome_forwardArray hparse
    (by decide) hb (by decide +kernel) rfl rfl rfl callee 4 _ _ _⟩

/-- `Make` of a box of integers calls `Many` of integers. -/
theorem makes_manyIntegers :
    (arrayCall makeIntegers makeDescriptor).Makes arrayEngine.scope 5
      (arrayCall manyIntegers manyDescriptor) := by
  have hparse : MethodRef.parse "System.Array Main::Many<!0>()" =
      .ok ⟨some (.plain "System.Array"), ⟨.plain "Main", "Many", [.typeParam 0], []⟩⟩ := by
    decide +kernel
  have hb : BoundMethod.ofRef
      ⟨some (.plain "System.Array"), ⟨.plain "Main", "Many", [.typeParam 0], []⟩⟩
      (.ofSignature makeIntegers) =
      .ok ⟨manyIntegers, manyDescriptor.name, .ofSignature manyIntegers,
        some (.plain "System.Array")⟩ := by
    decide +kernel
  exact ⟨.bound, Call.makesBy_of_outcome fun callee => .of_eq <| outcome_forwardArray hparse
    (by decide) hb (by decide +kernel) rfl rfl rfl callee 3 _ _ _⟩

/-- `Run` comes to `Many` of integers, through both kinds of placeholders. The call, the array and
the engine that made it are without placeholders. -/
theorem Engine.closed_of_invoke_arrays :
    arrayEngine.Over TypeName.IsClosed ∧ runArrays.hasPlaceholders = false ∧
      (arrayEngine.invoke 7 runArrays none []).1 = .ok (.array ⟨0, .plain "System.Int32"⟩) ∧
      (arrayEngine.invoke 7 runArrays none []).2.Over TypeName.IsClosed ∧
      (arrayCall runArrays runDescriptor).Occurs arrayEngine.scope 7 5
        (arrayCall manyIntegers manyDescriptor) ∧
      (arrayCall manyIntegers manyDescriptor).Over TypeName.IsClosed := by
  have hrun : runArrays.hasPlaceholders = false := by decide
  have hnone : ∀ v ∈ (none : Option Value), v.Over TypeName.IsClosed := nofun
  have hnil : ∀ v ∈ ([] : List Value), v.Over TypeName.IsClosed := nofun
  have hresult : (arrayEngine.invoke 7 runArrays none []).1 =
      .ok (.array ⟨0, .plain "System.Int32"⟩) := by
    decide +kernel
  have hmethod : arrayEngine.scope.method (.ofSignature runArrays none) arrayEngine.state =
      (.ok (arrayCall runArrays runDescriptor).method, arrayEngine.state) := by
    rw [Scope.method_of_find? (d := runDescriptor) (by decide +kernel)]
    rfl
  have hoccurs : (arrayCall runArrays runDescriptor).Occurs arrayEngine.scope 7 5
      (arrayCall manyIntegers manyDescriptor) :=
    .nested (.nested (.self (.refl _)) makes_makeIntegers) makes_manyIntegers
  obtain ⟨hcalls, -, hengine⟩ := Engine.closed_of_invoke over_arrayEngine 7 hrun hnone hnil
  exact ⟨over_arrayEngine, hrun, hresult, hengine, hoccurs, (hcalls _ _ hmethod).1 _ _ hoccurs⟩

end Hotswap
