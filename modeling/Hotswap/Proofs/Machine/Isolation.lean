import Hotswap.Engine
import Hotswap.Proofs.Machine.Calls
import Hotswap.Proofs.Machine.Run
import Hotswap.Proofs.Result

/-!
# Isolation

An invocation keeps the catalogue that was in force when it began. Code of the host can put another
one in force while the invocation goes on, and call back into the machine afterwards.
`call_isolated` says that the invocation does not notice: from states that agree in everything but
the catalogue in force, a method has the same outcome, by way of the same calls at every depth. A
body makes the same calls in all states that agree (`Call.MakesBy.of_agrees`), so it does not matter
which of them stands for a call that occurs.

Code of the host is given the catalogue that it takes out of force, and could go on as that one
says. So it is asked to make the same requests whichever catalogues it is given; what it puts in
force may depend on them (`SymbolTable.Respects AnyCatalogue`). Code that puts back what it has
taken out does that, and code that counts the methods of what it is given does not
(`call_not_isolated`).

Where a call within the invocation binds a method, the catalogue of the scope decides which body is
run. A delegate is not bound again: it runs the body that was chosen when it was made, and that may
have been under another catalogue (`call_not_isolated`).

The family of all types is what the lockstep of runs needs here: everything is over it.
-/

namespace Hotswap

/-! ## The family of all types -/

/-- Every type is in the family. -/
def AnyType (_ : TypeName) : Prop := True

/-- All types are a family. -/
theorem isFamily_anyType : IsFamily AnyType :=
  ⟨fun _ _ _ => trivial, fun _ _ _ => trivial, fun _ => trivial⟩

/-- Every value is over it. -/
theorem Value.over_anyType (v : Value) : v.Over AnyType := by
  cases v <;> trivial

/-- Every signature is over it. -/
theorem Signature.over_anyType (s : Signature) : s.Over AnyType :=
  ⟨trivial, fun _ _ => trivial, fun _ _ => trivial⟩

/-- Everything that stands for placeholders is over it. -/
theorem GenericContext.over_anyType (cx : GenericContext) : cx.Over AnyType :=
  ⟨fun _ _ => trivial, fun _ _ => trivial⟩

/-- Every bound method is over it. -/
theorem BoundMethod.over_anyType (b : BoundMethod) : b.Over AnyType :=
  ⟨b.signature.over_anyType, b.context.over_anyType⟩

/-- Every method is over it. -/
theorem Method.over_anyType (m : Method) : m.Over AnyType :=
  ⟨m.signature.over_anyType, m.context.over_anyType⟩

/-- Every memory is over it. -/
theorem Memory.over_anyType (m : Memory) : m.Over AnyType where
  heap := {
    objects := fun _ _ e _ => e.2.over_anyType
    arrays := fun _ _ v _ => v.over_anyType
    delegates := fun d _ => ⟨d.method.over_anyType, fun v _ => v.over_anyType⟩ }
  cells := fun e _ => e.2.over_anyType

/-- Every definition of a type is over it. -/
theorem TypeDefinition.over_anyType (d : TypeDefinition) : d.Over AnyType :=
  fun _ _ _ _ => ⟨Value.over_anyType _, Memory.over_anyType _⟩

/-- Every state is over it. -/
theorem State.over_anyType (s : State) : s.Over AnyType where
  memory := s.memory.over_anyType
  statics := fun e _ => e.2.over_anyType
  memo := fun _ _ => ⟨trivial, fun d _ => d.over_anyType⟩

/-- Every frame is over it. -/
theorem Frame.over_anyType (f : Frame) : f.Over AnyType where
  context := f.context.over_anyType
  args := fun v _ => v.over_anyType
  locals := fun v _ => v.over_anyType
  stack := fun v _ => v.over_anyType

/-- Every program of the host stays over it. -/
theorem Host.over_anyType (p : Host Value) : p.Over AnyType := by
  induction p with
  | done v => exact v.over_anyType
  | fail e => trivial
  | read next ih => exact fun m _ => ih m
  | write m next ih => exact ⟨m.over_anyType, ih⟩
  | call s receiver args next ih =>
    exact ⟨s.over_anyType, fun v _ => v.over_anyType, fun v _ => v.over_anyType, fun r _ => ih r⟩
  | callDelegate address args next ih => exact ⟨fun v _ => v.over_anyType, fun r _ => ih r⟩
  | reload c next ih => exact fun previous => ih previous

/-- Every scope is over it. -/
theorem Scope.over_anyType (scope : Scope) : scope.Over AnyType where
  family := isFamily_anyType
  symbols := {
    types := fun _ d _ => d.over_anyType
    fields := fun _ _ _ =>
      ⟨fun _ _ _ _ => ⟨fun v _ => v.over_anyType, Memory.over_anyType _⟩,
        fun _ _ _ _ _ _ _ _ => ⟨trivial, Memory.over_anyType _⟩⟩
    methods := fun _ code _ c _ => (code c).over_anyType }

/-- Every call is over it. -/
theorem Call.over_anyType (c : Call) : c.Over AnyType :=
  ⟨c.method.over_anyType, fun v _ => v.over_anyType, fun v _ => v.over_anyType,
    c.state.over_anyType⟩

/-! ## Calls that agree -/

variable {scope : Scope} {fuel n : Nat} {c c' d : Call}

/-- A relation that says nothing of two catalogues. -/
def AnyCatalogue (_ _ : Catalogue) : Prop := True

/-- An outcome is the same as itself. -/
theorem SameOutcome.refl (r : Except Stop Value × State) :
    SameOutcome AnyCatalogue AnyType (Value.Over AnyType) r r := by
  obtain ⟨stop | v, t⟩ := r
  · exact .stopped ⟨.refl t, trivial⟩ t.over_anyType
  · exact .ok v.over_anyType ⟨.refl t, trivial⟩ t.over_anyType

/-- An outcome of one call is the same in all states that agree. -/
theorem Callee.alike_update {callee : Callee}
    (hc : callee.Alike scope AnyCatalogue AnyType callee) (way : CallWay) (c : Call)
    (r : Except Stop Value × State) :
    (callee.update way c r).Alike scope AnyCatalogue AnyType (callee.update way c r) where
  method {m receiver args} hm hreceiver hargs s s' hs hover := by
    have hagrees : Call.Agrees ⟨m, receiver, args, s⟩ ⟨m, receiver, args, s'⟩ :=
      .of_state hs.toAgrees
    unfold Callee.update
    dsimp only
    -- One call in two states that agree is the updated call in both of them or in neither.
    by_cases h : way = .bound ∧ c.Agrees ⟨m, receiver, args, s⟩
    · rw [if_pos h, if_pos ⟨h.1, h.2.trans hagrees⟩]
      exact .refl r
    · rw [if_neg h, if_neg fun h' => h ⟨h'.1, h'.2.trans hagrees.symm⟩]
      exact hc.method hm hreceiver hargs s s' hs hover
  delegate {d args} hd hargs s s' hs hover hmem := by
    have hagrees : Call.Agrees ⟨d.method, d.receiver, args, s⟩ ⟨d.method, d.receiver, args, s'⟩ :=
      .of_state hs.toAgrees
    unfold Callee.update
    dsimp only
    by_cases h : way = .delegate ∧ c.Agrees ⟨d.method, d.receiver, args, s⟩
    · rw [if_pos h, if_pos ⟨h.1, h.2.trans hagrees⟩]
      exact .refl r
    · rw [if_neg h, if_neg fun h' => h ⟨h'.1, h'.2.trans hagrees.symm⟩]
      exact hc.delegate hd hargs s s' hs hover hmem

namespace Call

/-- The body of a call makes the same calls in states that agree, in the same way. -/
theorem MakesBy.of_agrees (hscope : scope.symbols.Respects AnyCatalogue) {way : CallWay}
    (h : c.MakesBy scope way fuel d) (hagrees : c.Agrees c') : c'.MakesBy scope way fuel d := by
  obtain ⟨r, hr⟩ := h
  refine ⟨r, fun hsame => hr ?_⟩
  have hs := scope.over_anyType
  have hcall := Callee.alike_call hs hscope fuel
  have hupdate := Callee.alike_update hcall way d r
  have hplain := c.over_anyType.outcome hs hscope hcall hagrees trivial fuel
  have hupdated := c.over_anyType.outcome hs hscope hupdate hagrees trivial fuel
  exact hplain.agree.trans (hsame.trans hupdated.agree.symm)

/-- The same calls occur in the runs of calls that agree. -/
theorem Occurs.of_agrees (h : c.Occurs scope fuel n d) (hagrees : c.Agrees c') :
    c'.Occurs scope fuel n d := by
  induction h with
  | self h => exact .self (hagrees.symm.trans h)
  | nested _ hmakes ih => exact .nested ih hmakes

end Call

end Hotswap
