import Hotswap.Proofs.Method.Routes

/-!
# Instantiating a definition

Binding a method reference goes from the open definition to a closed signature, and keeps the
generic arguments that it put in. A host method is registered under the definition, and
`HostMethod.signatureIn` puts the generic arguments in again. The two are inverse to each other:

* the parameters `!0`, `!1`, … of a definition are replaced by the arguments one by one
  (`substituteAll_typeParams`, `substituteAll_methodParams`), so that a definition becomes the
  signature that it was made from (`substitute_definition`);
* `signatureIn_of_ofRef`: a host method under the definition of a reference has the signature that
  the reference was bound to, and the host that is told the parameters as they are declared finds
  the same definition. Where the reference is bound does not matter for the definition.

The argument list of the declaring type has to be written out: a name that declares more parameters
than there are arguments has a definition that the arguments do not fill.
-/

namespace Hotswap

namespace TypeName

variable {typeArgs methodArgs : List TypeName}

/-- Types are replaced one by one. -/
theorem substituteAll_of_forall₂ {ts us : List TypeName}
    (h : List.Forall₂ (fun t u => substitute typeArgs methodArgs t = .ok u) ts us) :
    substituteAll typeArgs methodArgs ts = .ok us := by
  induction h with
  | nil => rfl
  | cons hfirst _ ih =>
    rw [substituteAll, hfirst]
    simp only [ih]

/-- Each of the parameters `0`, `1`, … of a family is replaced by the argument at its place. -/
theorem substituteAll_params {param : UInt32 → TypeName} {args : List TypeName}
    (hlength : args.length < UInt32.size)
    (hparam : ∀ index arg, args[index.toNat]? = some arg →
      substitute typeArgs methodArgs (param index) = .ok arg) :
    substituteAll typeArgs methodArgs
      ((List.range (args.length % UInt32.size)).map fun i => param (UInt32.ofNat i)) =
        .ok args := by
  rw [Nat.mod_eq_of_lt hlength]
  apply substituteAll_of_forall₂
  rw [List.forall₂_iff_get]
  refine ⟨by simp, fun i hi hi' => ?_⟩
  simp only [List.get_eq_getElem, List.getElem_map, List.getElem_range]
  apply hparam
  -- The places fit in 32 bits, so none of them wraps around.
  have hindex : (UInt32.ofNat i).toNat = i := UInt32.toNat_ofNat_of_lt' (hi'.trans hlength)
  rw [hindex]
  exact List.getElem?_eq_getElem hi'

/-- The parameters of a type are replaced by its arguments. -/
theorem substituteAll_typeParams (methodArgs : List TypeName)
    (h : typeArgs.length < UInt32.size) :
    substituteAll typeArgs methodArgs (typeParams typeArgs.length) = .ok typeArgs := by
  refine substituteAll_params h fun index arg harg => ?_
  rw [substitute, harg]

/-- The parameters of a method are replaced by its own arguments. -/
theorem substituteAll_methodParams (typeArgs : List TypeName)
    (h : methodArgs.length < UInt32.size) :
    substituteAll typeArgs methodArgs (methodParams methodArgs.length) = .ok methodArgs := by
  refine substituteAll_params h fun index arg harg => ?_
  rw [substitute, harg]

/-- The definition of a named type becomes the type again, if the type has an argument for every
parameter that its name declares. -/
theorem substitute_definition {name : String} {args : List TypeName} (methodArgs : List TypeName)
    (harity : (TypeName.named name args).arity ≤ args.length) (h : args.length < UInt32.size) :
    substitute args methodArgs (TypeName.named name args).definition = .ok (.named name args) := by
  have hparams : max (TypeName.named name args).arity args.length = args.length :=
    Nat.max_eq_right harity
  rw [definition, hparams, substitute, substituteAll_typeParams methodArgs h]

end TypeName

/-- **A definition becomes the signature** of which its generic arguments and its parameters are
those: the parameters as they are declared are closed with the arguments of the signature. -/
theorem Signature.substitute_definition {s : Signature} {name : String}
    {args parameters : List TypeName} (hnamed : s.declaringType = .named name args)
    (harity : s.declaringType.arity ≤ args.length) (hargs : args.length < UInt32.size)
    (hgeneric : s.genericArgs.length < UInt32.size)
    (hparameters : TypeName.substituteAll args s.genericArgs parameters = .ok s.parameters) :
    ({ s.definition with parameters }).substitute args s.genericArgs = .ok s := by
  obtain ⟨declaringType, methodName, genericArgs, closed⟩ := s
  subst hnamed
  have htype := TypeName.substitute_definition genericArgs harity hargs
  have hmethod := TypeName.substituteAll_methodParams args hgeneric
  unfold Signature.substitute Signature.definition
  simp only [htype, hmethod, hparameters, ok_bind]
  rfl

namespace BoundMethod

variable {m : MethodRef} {caller : GenericContext} {b : BoundMethod}

/-- A reference to a method of a named type is bound to a method of a type with that name and as
many arguments. -/
theorem exists_declaringType_of_ofRef {name : String} {args : List TypeName}
    (h : ofRef m caller = .ok b) (hnamed : m.signature.declaringType = .named name args) :
    ∃ closed, b.signature.declaringType = .named name closed ∧ closed.length = args.length := by
  obtain ⟨-, -, -, hdeclaring, -, -⟩ := ofRef_eq_ok h
  rw [hnamed] at hdeclaring
  obtain ⟨closed, hclosed, hname⟩ := TypeName.substitute_named hdeclaring
  exact ⟨closed, hname, TypeName.length_substituteAll hclosed⟩

/-- The definition that the host makes of the closed signature and of the parameters as they are
declared is the definition of the reference. -/
theorem definition_ofSignature_of_ofRef {name : String} {args : List TypeName}
    (h : ofRef m caller = .ok b) (hnamed : m.signature.declaringType = .named name args) :
    (ofSignature b.signature (some m.signature.parameters)).definition =
      m.signature.definition := by
  obtain ⟨-, -, hname, hdeclaring, hgeneric, -⟩ := ofRef_eq_ok h
  rw [hnamed] at hdeclaring
  have htype : b.signature.declaringType.definition = m.signature.declaringType.definition := by
    rw [hnamed]
    exact TypeName.definition_of_substitute_named hdeclaring
  simp only [ofSignature, Signature.definition, htype, hname,
    TypeName.length_substituteAll hgeneric, Option.getD_some]

end BoundMethod

/-- **Instantiating the definition inverts binding.** Let a reference to a method of a named type,
which has an argument for every parameter that the name declares, be bound. Then every host method
under the definition of the reference has, with the generic arguments of the bound method, the
closed signature; the host makes the same definition of that signature and of the parameters as they
are declared; and the definition is the same wherever the reference is bound. -/
theorem signatureIn_of_ofRef {m : MethodRef} {caller : GenericContext} {b : BoundMethod}
    {name : String} {args : List TypeName}
    (hnamed : m.signature.declaringType = .named name args)
    (harity : m.signature.declaringType.arity ≤ args.length) (hargs : args.length < UInt32.size)
    (hgeneric : m.signature.genericArgs.length < UInt32.size)
    (hb : BoundMethod.ofRef m caller = .ok b) :
    (∀ h : HostMethod, h.definition = m.signature.definition →
      h.signatureIn b.context = .ok b.signature) ∧
    b.definition = (BoundMethod.ofSignature b.signature (some m.signature.parameters)).definition ∧
    ∀ (caller' : GenericContext) (b' : BoundMethod), BoundMethod.ofRef m caller' = .ok b' →
      b'.definition = b.definition := by
  obtain ⟨hdefinition, hcontext, -, -, hclosedArgs, hparameters⟩ := BoundMethod.ofRef_eq_ok hb
  have hhost := BoundMethod.definition_ofSignature_of_ofRef hb hnamed
  obtain ⟨closed, hdeclaring, hlength⟩ := BoundMethod.exists_declaringType_of_ofRef hb hnamed
  refine ⟨fun h hh => ?_, hdefinition.trans hhost.symm, fun caller' b' hb' => ?_⟩
  · have harity' : b.signature.declaringType.arity ≤ closed.length := by
      rw [hnamed] at harity
      rw [hdeclaring, hlength]
      exact harity
    have hgeneric' : b.signature.genericArgs.length < UInt32.size := by
      rw [TypeName.length_substituteAll hclosedArgs]
      exact hgeneric
    have hargs' : b.signature.declaringType.args = closed := by
      rw [hdeclaring]
      rfl
    rw [hargs'] at hparameters
    have hclosed : h.definition.substitute closed b.signature.genericArgs = .ok b.signature := by
      rw [hh, ← hhost]
      exact Signature.substitute_definition hdeclaring harity' (hlength ▸ hargs) hgeneric'
        hparameters
    unfold HostMethod.signatureIn
    rw [hcontext]
    simp only [GenericContext.ofSignature, hargs', hclosed]
    rfl
  · rw [(BoundMethod.ofRef_eq_ok hb').1, hdefinition]

/-- A reference to `Map` of the generic type `Box`, whose parameter mentions the argument of the
type and that of the method. -/
def boxMap : MethodRef where
  returnType := some (.methodParam 0)
  signature :=
    ⟨.named "Box`1" [.typeParam 0], "Map", [.arrayOf (.methodParam 0)],
      [.named "Func`2" [.typeParam 0, .methodParam 0]]⟩

/-- `Map` on boxes of strings, bound by a method whose own argument is the type of integers. -/
theorem signatureIn_boxMap :
    ∃ b, BoundMethod.ofRef boxMap ⟨[.plain "System.String"], [.plain "System.Int32"]⟩ = .ok b ∧
      b.signature = ⟨.named "Box`1" [.plain "System.String"], "Map",
        [.arrayOf (.plain "System.Int32")],
        [.named "Func`2" [.plain "System.String", .arrayOf (.plain "System.Int32")]]⟩ ∧
      HostMethod.signatureIn ⟨boxMap.signature.definition, .methodParam 0, false, 0⟩ b.context =
        .ok b.signature := by
  have hb : BoundMethod.ofRef boxMap ⟨[.plain "System.String"], [.plain "System.Int32"]⟩ =
      .ok ⟨⟨.named "Box`1" [.plain "System.String"], "Map", [.arrayOf (.plain "System.Int32")],
          [.named "Func`2" [.plain "System.String", .arrayOf (.plain "System.Int32")]]⟩,
        boxMap.signature.definition,
        ⟨[.plain "System.String"], [.arrayOf (.plain "System.Int32")]⟩,
        some (.arrayOf (.plain "System.Int32"))⟩ := by
    decide +kernel
  refine ⟨_, hb, rfl, ?_⟩
  have hnamed : boxMap.signature.declaringType = .named "Box`1" [.typeParam 0] := rfl
  exact (signatureIn_of_ofRef hnamed (by decide +kernel) (by decide) (by decide) hb).1 _ rfl

end Hotswap
