import Hotswap.Proofs.Machine.Run
import Hotswap.Proofs.Symbols.Memo
import Hotswap.Proofs.TypeName.Substitution
import Mathlib

/-!
# Two routes to a method

An instruction binds a method reference and calls what it is bound to. The host calls the same
method by its closed signature. Both look for a descriptor, and then for a method of the host, under
the closed signature and under the open definition. An instruction takes the definition from the
reference as it is written, and the host makes one from the closed signature.

* `ofRef_eq_ok` says what binding a reference does, and `definition_eq_iff` when the two definitions
  are one: nothing that the definition keeps has a placeholder (`Signature.KeepsDefinition`).
* `method_of_keepsDefinition`: on those references the routes choose the same body, whatever the
  host and the catalogue are. On any other one a descriptor of the definition is found by an
  instruction and not by the host, as it is for `Get` on boxes of integers (`method_boxGet`).
-/

namespace Hotswap

/-- A signature whose definition is the same wherever it is bound: the declaring type is named or
has no placeholders, and neither have the parameters. -/
def Signature.KeepsDefinition (s : Signature) : Prop :=
  (s.declaringType.name?.isSome = true ∨ s.declaringType.hasPlaceholders = false) ∧
    TypeName.anyPlaceholders s.parameters = false

instance (s : Signature) : Decidable s.KeepsDefinition :=
  inferInstanceAs (Decidable (_ ∧ _))

/-! ## Signatures and their texts -/

namespace Signature

/-- A signature keeps its definition if its parameters have no placeholders and its declaring type
is named or has none either. -/
theorem keepsDefinition_of_closed {s : Signature}
    (htype : s.declaringType.name? = none → s.declaringType.hasPlaceholders = false)
    (hparams : TypeName.anyPlaceholders s.parameters = false) : s.KeepsDefinition := by
  refine ⟨?_, hparams⟩
  by_cases hnamed : s.declaringType.name?.isSome = true
  · exact .inl hnamed
  · exact .inr (htype (by simpa using hnamed))

/-- The definition of a signature that can be read can be read. -/
theorem WellFormed.definition {s : Signature} (h : s.WellFormed) : s.definition.WellFormed where
  declaringType := TypeName.wellFormed_definition h.declaringType
  name := h.name
  opens := by
    intro hne
    apply h.opens
    intro hargs
    apply hne
    rw [Signature.definition, hargs]
    rfl
  genericArgs := TypeName.allWellFormed_methodParams _
  parameters := h.parameters

end Signature

/-! ## Binding a reference -/

/-- Types are closed by replacing their placeholders. -/
theorem GenericContext.closeAll_eq_ok {cx : GenericContext} {ts us : List TypeName} :
    cx.closeAll ts = .ok us ↔ TypeName.substituteAll cx.typeArgs cx.methodArgs ts = .ok us := by
  induction ts generalizing us with
  | nil => simp [closeAll, TypeName.substituteAll]
  | cons t rest ih =>
    rw [closeAll, TypeName.substituteAll]
    simp only [bind_eq_ok, GenericContext.close, mapError_eq_ok, ih]
    cases ht : TypeName.substitute cx.typeArgs cx.methodArgs t with
    | error e => simp
    | ok u =>
      cases hrest : TypeName.substituteAll cx.typeArgs cx.methodArgs rest with
      | error e => simp
      | ok us' => simp [pure, Except.pure]

namespace BoundMethod

variable {m : MethodRef} {caller : GenericContext} {b : BoundMethod}

/-- **Binding a reference** closes the declaring type and the generic arguments for the caller and
the parameters for the method. The definition is that of the reference as it is written. -/
theorem ofRef_eq_ok (h : ofRef m caller = .ok b) :
    b.definition = m.signature.definition ∧ b.context = .ofSignature b.signature ∧
      b.signature.name = m.signature.name ∧
      TypeName.substitute caller.typeArgs caller.methodArgs m.signature.declaringType =
        .ok b.signature.declaringType ∧
      TypeName.substituteAll caller.typeArgs caller.methodArgs m.signature.genericArgs =
        .ok b.signature.genericArgs ∧
      TypeName.substituteAll b.signature.declaringType.args b.signature.genericArgs
        m.signature.parameters = .ok b.signature.parameters := by
  unfold ofRef at h
  obtain ⟨declaringType, hdeclaring, h⟩ := bind_eq_ok.1 (mapError_eq_ok.1 h)
  obtain ⟨genericArgs, hgeneric, h⟩ := bind_eq_ok.1 h
  obtain ⟨parameters, hparameters, h⟩ := bind_eq_ok.1 h
  have hbound : ∃ returnType, b = ⟨⟨declaringType, m.signature.name, genericArgs, parameters⟩,
      m.signature.definition, ⟨declaringType.args, genericArgs⟩, returnType⟩ := by
    dsimp only at h
    split at h
    · exact ⟨none, (Except.ok.inj h).symm⟩
    · obtain ⟨returnType, -, h⟩ := bind_eq_ok.1 h
      exact ⟨returnType, (Except.ok.inj h).symm⟩
  obtain ⟨returnType, rfl⟩ := hbound
  exact ⟨rfl, rfl, rfl, mapError_eq_ok.1 hdeclaring, GenericContext.closeAll_eq_ok.1 hgeneric,
    GenericContext.closeAll_eq_ok.1 hparameters⟩

/-- A reference that is bound where no placeholder is left has none. -/
theorem closed_of_ofRef (h : ofRef m caller = .ok b) (hcaller : caller.hasPlaceholders = false) :
    b.signature.declaringType.hasPlaceholders = false ∧
      TypeName.anyPlaceholders b.signature.parameters = false := by
  obtain ⟨-, -, -, hdeclaring, hgeneric, hparameters⟩ := ofRef_eq_ok h
  obtain ⟨htype, hmethod⟩ := Bool.or_eq_false_iff.1 hcaller
  have hclosed := TypeName.closed_of_substitute htype hmethod _ hdeclaring
  have hargs := TypeName.closed_of_substituteAll htype hmethod _ hgeneric
  exact ⟨hclosed, TypeName.closed_of_substituteAll (TypeName.anyPlaceholders_args hclosed) hargs _
    hparameters⟩

/-- A reference that can be read is bound to a method whose signature can be read. -/
theorem wellFormed_of_ofRef (h : ofRef m caller = .ok b) (hm : m.signature.WellFormed)
    (htype : TypeName.AllWellFormed caller.typeArgs)
    (hmethod : TypeName.AllWellFormed caller.methodArgs) : b.signature.WellFormed := by
  obtain ⟨-, -, hname, hdeclaring, hgeneric, hparameters⟩ := ofRef_eq_ok h
  have hdeclaring := TypeName.wellFormed_of_substitute htype hmethod _ hm.declaringType hdeclaring
  have hargs := TypeName.wellFormed_of_substituteAll htype hmethod _ hm.genericArgs hgeneric
  refine ⟨hdeclaring, hname ▸ hm.name, fun hne => ?_, hargs, TypeName.wellFormed_of_substituteAll
    (TypeName.allWellFormed_args hdeclaring) hargs _ hm.parameters hparameters⟩
  rw [hname]
  apply hm.opens
  intro hnil
  apply hne
  rw [← List.length_eq_zero_iff, TypeName.length_substituteAll hgeneric, hnil]
  rfl

/-! ## Two definitions -/

/-- A bound method is looked under its closed text and under that of its definition. -/
theorem mem_keys {key : String} :
    key ∈ b.keys ↔ key = b.signature.render ∨ key = b.definition.render := by
  unfold keys
  by_cases hsame : b.signature.render = b.definition.render
  · simp [hsame]
  · simp [hsame]

/-- The definition that the host makes is the one of the reference exactly if the reference keeps
its definition. -/
theorem definition_eq_iff (h : ofRef m caller = .ok b) (hcaller : caller.hasPlaceholders = false) :
    b.signature.definition = b.definition ↔ m.signature.KeepsDefinition := by
  obtain ⟨hdefinition, -, hname, hdeclaring, hgeneric, hparameters⟩ := ofRef_eq_ok h
  obtain ⟨hclosed, hclosedParameters⟩ := closed_of_ofRef h hcaller
  rw [hdefinition]
  constructor
  · intro hsame
    have htypes : b.signature.declaringType.definition = m.signature.declaringType.definition :=
      congrArg Signature.declaringType hsame
    have hparams : b.signature.parameters = m.signature.parameters := by
      simpa [Signature.definition] using congrArg Signature.parameters hsame
    refine Signature.keepsDefinition_of_closed (fun hother => ?_) (hparams ▸ hclosedParameters)
    -- A type that is not named is its own definition, so it is the closed one.
    have hother' : b.signature.declaringType.name? = none := by
      rw [← TypeName.name?_definition, htypes, TypeName.name?_definition, hother]
    rw [TypeName.definition_of_name?_eq_none hother,
      TypeName.definition_of_name?_eq_none hother'] at htypes
    exact htypes ▸ hclosed
  · rintro ⟨hkeeps, hplaceholders⟩
    have htypes : b.signature.declaringType.definition = m.signature.declaringType.definition := by
      rcases hkeeps with hnamed | hopen
      · obtain ⟨name, args, hnamed⟩ := TypeName.exists_named hnamed
        rw [hnamed] at hdeclaring ⊢
        exact TypeName.definition_of_substitute_named hdeclaring
      · rw [TypeName.substitute_of_closed _ _ _ hopen] at hdeclaring
        rw [Except.ok.inj hdeclaring]
    have hparams : b.signature.parameters = m.signature.parameters := by
      rw [TypeName.substituteAll_of_closed _ _ _ hplaceholders] at hparameters
      exact (Except.ok.inj hparameters).symm
    simp only [Signature.definition, htypes, hname, hparams, TypeName.length_substituteAll hgeneric]

/-- A closed signature is the definition of the reference only if the reference keeps its
definition. -/
theorem keepsDefinition_of_signature_eq (h : ofRef m caller = .ok b)
    (hcaller : caller.hasPlaceholders = false) (hsame : b.signature = b.definition) :
    m.signature.KeepsDefinition := by
  obtain ⟨hclosed, hclosedParameters⟩ := closed_of_ofRef h hcaller
  rw [(ofRef_eq_ok h).1] at hsame
  refine Signature.keepsDefinition_of_closed (fun hother => ?_) ?_
  · have htypes : b.signature.declaringType = m.signature.declaringType.definition :=
      congrArg Signature.declaringType hsame
    rw [TypeName.definition_of_name?_eq_none hother] at htypes
    exact htypes ▸ hclosed
  · have hparams : b.signature.parameters = m.signature.parameters := by
      simpa [Signature.definition] using congrArg Signature.parameters hsame
    exact hparams ▸ hclosedParameters

/-- If a reference does not keep its definition, an instruction looks under the text of the
definition and the host does not. -/
theorem keys_of_not_keepsDefinition (h : ofRef m caller = .ok b)
    (hcaller : caller.hasPlaceholders = false) (hm : m.signature.WellFormed)
    (htype : TypeName.AllWellFormed caller.typeArgs)
    (hmethod : TypeName.AllWellFormed caller.methodArgs)
    (hkeeps : ¬m.signature.KeepsDefinition) :
    b.definition.render ∈ b.keys ∧
      b.definition.render ∉ (ofSignature b.signature none).keys := by
  have hsignature := wellFormed_of_ofRef h hm htype hmethod
  have hdefinition : b.definition.WellFormed := (ofRef_eq_ok h).1 ▸ hm.definition
  have hclosed : b.signature.render ≠ b.definition.render := fun htext =>
    hkeeps (keepsDefinition_of_signature_eq h hcaller
      (Signature.render_inj hsignature hdefinition htext))
  have hopen : b.signature.definition.render ≠ b.definition.render := fun htext =>
    hkeeps ((definition_eq_iff h hcaller).1
      (Signature.render_inj hsignature.definition hdefinition htext))
  refine ⟨mem_keys.2 (.inr rfl), fun hmem => ?_⟩
  rcases mem_keys.1 hmem with htext | htext
  · exact hclosed htext.symm
  · exact hopen htext.symm

end BoundMethod

/-! ## Two choices of a body -/

namespace Scope

variable (scope : Scope)

/-- What the type of the result is does not matter for the choice. -/
theorem method_congr {b b' : BoundMethod} (hsignature : b.signature = b'.signature)
    (hdefinition : b.definition = b'.definition) (hcontext : b.context = b'.context) :
    scope.method b = scope.method b' := by
  obtain ⟨signature, definition, context, returnType⟩ := b
  obtain ⟨signature', definition', context', returnType'⟩ := b'
  cases hsignature
  cases hdefinition
  cases hcontext
  rfl

/-- A method that has no descriptor and that the host has not is an error. -/
theorem method_of_find?_eq_none {b : BoundMethod} (h : scope.catalogue.find? b.keys = none)
    {s : State} (hhost : (scope.symbols.hostMethod? b s.memo).1 = none) :
    (scope.method b s).1 = .error (.failed (.resolution b.signature.render)) := by
  have hmissed : scope.method? b s =
      (.ok none, { s with memo := (scope.symbols.hostMethod? b s.memo).2 }) := by
    unfold method?
    rw [h]
    show (Except.ok ((scope.symbols.hostMethod? b s.memo).1.map _), _) = _
    rw [hhost]
    rfl
  unfold method
  dsimp only [bind, ExceptT.bind, ExceptT.mk, StateT.bind]
  rw [hmissed]
  rfl

end Scope

/-- A catalogue of one descriptor has it under its text and nothing else. -/
theorem Catalogue.find?_of_ofList_singleton {c : Catalogue} {d : Descriptor}
    (h : ofList [d] = .ok c) (keys : List String) :
    c.find? keys = if d.name.render ∈ keys then some d else none := by
  obtain ⟨c', hinsert, hrest⟩ := bind_eq_ok.1 h
  cases hrest
  induction keys with
  | nil => rfl
  | cons key rest ih =>
    rw [find?] at ih
    rw [find?, List.findSome?_cons, ih]
    by_cases hkey : key = d.name.render
    · rw [hkey, get?_of_insert hinsert]
      simp
    · have hmissing : c.get? key = none := by
        rw [get?_of_insert_of_ne hinsert hkey]
        rfl
      rw [hmissing]
      simp [Ne.symm hkey]

/-- **The two routes choose the same body**, whatever the host and the catalogue are, if the
reference keeps its definition. If a reference that can be read does not, then a descriptor of its
definition is found by the instruction and not by the host. -/
theorem method_of_keepsDefinition {m : MethodRef} {caller : GenericContext} {b : BoundMethod}
    (hb : BoundMethod.ofRef m caller = .ok b) (hcaller : caller.hasPlaceholders = false) :
    (m.signature.KeepsDefinition → ∀ (scope : Scope) (s : State),
      scope.method b s = scope.method (.ofSignature b.signature none) s) ∧
    (m.signature.WellFormed → TypeName.AllWellFormed caller.typeArgs →
      TypeName.AllWellFormed caller.methodArgs → ¬m.signature.KeepsDefinition →
      ∀ (d : Descriptor) (c : Catalogue), d.name = m.signature.definition →
        Catalogue.ofList [d] = .ok c → ∀ s : State, s.memo = {} →
        (Scope.method ⟨{}, c⟩ b s).1 = .ok ⟨b.signature, b.context, .patched d⟩ ∧
        (Scope.method ⟨{}, c⟩ (.ofSignature b.signature none) s).1 =
          .error (.failed (.resolution b.signature.render))) := by
  obtain ⟨hdefinition, hcontext, -⟩ := BoundMethod.ofRef_eq_ok hb
  constructor
  · intro hkeeps scope s
    have hsame := (BoundMethod.definition_eq_iff hb hcaller).2 hkeeps
    have hchoice : scope.method b = scope.method (.ofSignature b.signature none) :=
      scope.method_congr rfl hsame.symm hcontext
    rw [hchoice]
  · intro hm htype hmethod hkeeps d c hname hc s hmemo
    obtain ⟨hfound, hmissed⟩ :=
      BoundMethod.keys_of_not_keepsDefinition hb hcaller hm htype hmethod hkeeps
    rw [hdefinition, ← hname] at hfound hmissed
    have hfind := Catalogue.find?_of_ofList_singleton hc
    constructor
    · have hpatched : Catalogue.find? c b.keys = some d := (hfind b.keys).trans (if_pos hfound)
      rw [@Scope.method_of_find? ⟨{}, c⟩ b d hpatched]
      rfl
    · refine Scope.method_of_find?_eq_none ⟨{}, c⟩ ((hfind _).trans (if_neg hmissed)) ?_
      rw [SymbolTable.fst_hostMethod?, hmemo]
      rfl

/-- A descriptor for `Get` of the generic type `Box`, which gives its argument back. -/
def boxGetDescriptor : Descriptor where
  name := ⟨.named "Box`1" [.typeParam 0], "Get", [], [.typeParam 0]⟩
  isStatic := true
  parameters := [.typeParam 0]
  returnType := .typeParam 0
  body := {
    maxStack := 1
    locals := []
    instructions := .ofList [(0, ⟨.ldarg0, .none, some 1⟩), (1, ⟨.ret, .none, none⟩)] }

/-- `Get` on boxes of integers is run by the descriptor when an instruction calls it, and cannot be
resolved when the host calls it. -/
theorem method_boxGet :
    (Scope.method ⟨{}, ⟨.ofList [("Box`1<!0>::Get(!0)", boxGetDescriptor)]⟩⟩ boundBoxGet {}).1 =
        .ok ⟨boxGet, .ofSignature boxGet, .patched boxGetDescriptor⟩ ∧
      (Scope.method ⟨{}, ⟨.ofList [("Box`1<!0>::Get(!0)", boxGetDescriptor)]⟩⟩
          (.ofSignature boxGet none) {}).1 =
        .error (.failed (.resolution "Box`1<System.Int32>::Get(System.Int32)")) := by
  have hbound : BoundMethod.ofRef ⟨some (.typeParam 0), ⟨.named "Box`1" [.named "System.Int32" []],
      "Get", [], [.typeParam 0]⟩⟩ {} = .ok boundBoxGet := by decide +kernel
  have hread : Signature.parse "Box`1<System.Int32>::Get(!0)" =
      .ok ⟨.named "Box`1" [.named "System.Int32" []], "Get", [], [.typeParam 0]⟩ := by
    decide +kernel
  exact (method_of_keepsDefinition hbound rfl).2 (Signature.wellFormed_of_parse hread) trivial
    trivial (by decide) boxGetDescriptor ⟨.ofList [("Box`1<!0>::Get(!0)", boxGetDescriptor)]⟩
    (by decide +kernel) (by decide +kernel) {} rfl

end Hotswap
