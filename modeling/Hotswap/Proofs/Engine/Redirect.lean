import Hotswap.Engine
import Hotswap.Proofs.Machine.Run
import Mathlib

/-!
# Diverted call sites

A method of the host that can be diverted asks for a descriptor and has it run. An instruction, and
the host that invokes a method by its signature, have a body chosen first and call what was chosen.
The ways are written apart, and `redirect_eq` says that they lead to the same place:

* where a descriptor is in force for a call site, running it there is choosing a body for the bound
  method and calling it, with the same outcome and the same engine afterwards; for a site that gives
  no parameters of a definition it is invoking the signature;
* where none is, the outcome is that the descriptor is missing, and the engine stays as it was. What
  the host has registered does not count: the same engine may well be able to invoke the signature
  (`redirect_double`).

A call counts against the fuel and the run of a descriptor does not, so the call needs one unit
more.
-/

namespace Hotswap

/-- A catalogue has a descriptor under one of several texts if it has one under some of them. -/
theorem Catalogue.isSome_find? (c : Catalogue) (keys : List String) :
    (c.find? keys).isSome = keys.any c.contains := by
  induction keys with
  | nil => rfl
  | cons key rest ih =>
    rw [find?, List.findSome?_cons, List.any_cons, ← ih]
    simp only [contains, Table.contains, find?]
    have hget : c.methods.get? key = c.get? key := rfl
    rw [hget]
    cases c.get? key with
    | none => simp
    | some d => simp

namespace Engine

variable (e : Engine) (fuel : Nat) (site : CallSite) (receiver : Option Value) (args : List Value)

/-- A site is patched if there is a descriptor to run for it. -/
theorem isPatched_eq_isSome : e.isPatched site = (e.descriptor? site).isSome :=
  (e.catalogue.isSome_find? site.bound.keys).symm

/-- The body of the bound method of a patched site is its descriptor. -/
theorem method_bound_of_descriptor? {d : Descriptor} (h : e.descriptor? site = some d) :
    e.scope.method site.bound = pure ⟨site.signature, site.bound.context, .patched d⟩ := by
  have hfind : e.scope.catalogue.find? site.bound.keys = some d := h
  exact Scope.method_of_find? hfind

/-- Running the descriptor of a site is calling the method that it is the body of. -/
theorem redirect_of_descriptor? {d : Descriptor} (h : e.descriptor? site = some d) :
    e.redirect fuel site receiver args .any =
      e.run (call e.scope (fuel + 1) ⟨site.signature, site.bound.context, .patched d⟩ receiver
        args) := by
  have hview : ∀ v : Value, Machine.ofExcept (HostType.any.view v) = (pure v : Machine Value) := by
    intro v
    rfl
  unfold redirect
  rw [h]
  simp only [hview, bind_pure]
  rfl

end Engine

/-- **A diverted site and a call agree.** If a descriptor is in force for a site, running it is
choosing a body for the bound method of the site and calling it, and invoking the signature if the
site has no parameters of its own definition; and if none is in force it is missing, whatever the
host wants to see and whatever it has registered, and the engine stays as it was. -/
theorem Engine.redirect_eq (e : Engine) (fuel : Nat) (site : CallSite) (receiver : Option Value)
    (args : List Value) :
    (e.isPatched site = true →
      e.redirect fuel site receiver args .any =
        e.run (do call e.scope (fuel + 1) (← e.scope.method site.bound) receiver args) ∧
      (site.definitionParams = none → e.redirect fuel site receiver args .any =
        e.invoke (fuel + 1) site.signature receiver args)) ∧
    (e.isPatched site = false → ∀ t : HostType,
      e.redirect fuel site receiver args t =
        (.error (.failed (.missingDescriptor site.signature.render)), e)) := by
  rw [isPatched_eq_isSome]
  constructor
  · intro hpatched
    obtain ⟨d, hd⟩ := Option.isSome_iff_exists.1 hpatched
    have hcall : e.redirect fuel site receiver args .any =
        e.run (do call e.scope (fuel + 1) (← e.scope.method site.bound) receiver args) := by
      rw [e.redirect_of_descriptor? fuel site receiver args hd,
        e.method_bound_of_descriptor? site hd, pure_bind]
    refine ⟨hcall, fun hparams => ?_⟩
    rw [hcall]
    unfold Engine.invoke Hotswap.invoke CallSite.bound
    rw [hparams]
  · intro hmissing t
    have hnone : e.descriptor? site = none := by simpa using hmissing
    unfold redirect
    rw [hnone]
    rfl

/-- The closed signature of `Double` on boxes of integers. -/
def boxDouble : Signature :=
  ⟨.named "Box`1" [.plain "System.Int32"], "Double", [], [.plain "System.Int32"]⟩

/-- A descriptor for `Double` on boxes of any type, which adds its argument to itself. -/
def boxDoubleDescriptor : Descriptor where
  name := ⟨.named "Box`1" [.typeParam 0], "Double", [], [.typeParam 0]⟩
  isStatic := false
  parameters := [.typeParam 0]
  returnType := .typeParam 0
  body := {
    maxStack := 2
    locals := []
    instructions := .ofList [
      (0, ⟨.ldarg1, .none, some 1⟩), (1, ⟨.ldarg1, .none, some 2⟩), (2, ⟨.add, .none, some 3⟩),
      (3, ⟨.ret, .none, none⟩)] }

/-- A host that has `Double` on boxes of integers itself. -/
def doubleHost : SymbolTable where
  modules := [{
    name := "Game"
    methods := .ofList [(boxDouble.render, ⟨boxDouble, .plain "System.Int32", true,
      fun _ => .done (.int32 0)⟩)] }]

/-- The site of `Double` is diverted to the descriptor of the open definition, if the catalogue has
it. Otherwise the descriptor is missing, although the host can be asked for the method. -/
theorem Engine.redirect_double :
    (∃ c, Catalogue.ofList [boxDoubleDescriptor] = .ok c ∧
      ((Engine.start c doubleHost).redirect 5 ⟨boxDouble, some [.typeParam 0]⟩ none [.int32 21]
        .any).1 = .ok (.int32 42)) ∧
    ((Engine.start ∅ doubleHost).redirect 5 ⟨boxDouble, none⟩ none [.int32 21] .any).1 =
      .error (.failed (.missingDescriptor boxDouble.render)) ∧
    ((Engine.start ∅ doubleHost).invoke 5 boxDouble none [.int32 21]).1 = .ok (.int32 0) := by
  have hhost : (Engine.start ∅ doubleHost).isPatched ⟨boxDouble, none⟩ = false := by
    decide +kernel
  have hinvoke : ((Engine.start ∅ doubleHost).invoke 5 boxDouble none [.int32 21]).1 =
      .ok (.int32 0) := by
    decide +kernel
  have hcatalogue : ∃ c, Catalogue.ofList [boxDoubleDescriptor] = .ok c ∧
      (Engine.start c doubleHost).isPatched ⟨boxDouble, some [.typeParam 0]⟩ = true ∧
      ((Engine.start c doubleHost).run (do
        call (Engine.start c doubleHost).scope 6
          (← (Engine.start c doubleHost).scope.method
            (CallSite.bound ⟨boxDouble, some [.typeParam 0]⟩))
          none [.int32 21])).1 = .ok (.int32 42) := by
    refine ⟨_, rfl, ?_, ?_⟩
    · decide +kernel
    · decide +kernel
  obtain ⟨c, hc, hpatched, hcall⟩ := hcatalogue
  refine ⟨⟨c, hc, ?_⟩, ?_, hinvoke⟩
  · rw [((Engine.start c doubleHost).redirect_eq 5 _ none [.int32 21]).1 hpatched |>.1]
    exact hcall
  · rw [((Engine.start ∅ doubleHost).redirect_eq 5 _ none [.int32 21]).2 hhost]

end Hotswap
