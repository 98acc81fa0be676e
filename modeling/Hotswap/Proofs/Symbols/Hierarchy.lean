import Hotswap.Proofs.TypeName.Substitution
import Hotswap.Symbols.Cast
import Mathlib

/-!
# The hierarchy of classes

A class is derived from its registered base, with the placeholders of the base replaced by the
generic arguments of the class. `SymbolTable.Inherits` is the hierarchy that this makes: zero or
more steps from a class to a type.

The test whether an object has a type goes from base to base as they are registered and replaces no
placeholders (`derives_iff_reaches`). Since a class has one base, whatever its arguments are, it
passes through the same classes as the hierarchy with other arguments. So it is right about every
type that it finds, and it finds a type other than the class itself exactly if a class of the
hierarchy has that type, as it is written, for its registered base (`derives_iff_recognises`).
-/

namespace Hotswap

/-! ## Replacing the placeholders of a type -/

namespace TypeName

mutual

/-- The type with `!N` replaced by the `N`th argument, if there is one. -/
def instantiate (args : List TypeName) : TypeName → TypeName
  | .named name ts => .named name (instantiateAll args ts)
  | .typeParam index => args[index.toNat]?.getD (.typeParam index)
  | .methodParam index => .methodParam index
  | .suffixed element suffix => .suffixed (instantiate args element) suffix

/-- The types with `!N` replaced by the `N`th argument, if there is one. -/
def instantiateAll (args : List TypeName) : List TypeName → List TypeName
  | [] => []
  | t :: rest => instantiate args t :: instantiateAll args rest

end

mutual

/-- Where substitution with no arguments of a method succeeds, it gives this type. -/
theorem instantiate_of_substitute {args : List TypeName} :
    {t u : TypeName} → substitute args [] t = .ok u → instantiate args t = u
  | .named name ts, u, h => by
    obtain ⟨us, hus, rfl⟩ := substitute_named h
    rw [instantiate, instantiateAll_of_substituteAll hus]
  | .typeParam index, u, h => by
    rw [substitute] at h
    rw [instantiate]
    split at h
    · rename_i arg harg
      cases h
      rw [harg, Option.getD_some]
    · cases h
  | .methodParam index, u, h => by
    rw [substitute] at h
    cases h
  | .suffixed element suffix, u, h => by
    obtain ⟨v, hv, rfl⟩ := substitute_suffixed h
    rw [instantiate, instantiate_of_substitute hv]

/-- Types are instantiated as they are substituted in, if all placeholders are bound. -/
theorem instantiateAll_of_substituteAll {args : List TypeName} :
    {ts us : List TypeName} → substituteAll args [] ts = .ok us → instantiateAll args ts = us
  | [], us, h => by
    rw [substituteAll] at h
    cases h
    rfl
  | t :: rest, us, h => by
    obtain ⟨u, us', hu, hrest, rfl⟩ := substituteAll_cons h
    rw [instantiateAll, instantiate_of_substitute hu, instantiateAll_of_substituteAll hrest]

end

/-- A type without placeholders stays as it is. -/
theorem instantiate_of_closed (args : List TypeName) {t : TypeName}
    (h : t.hasPlaceholders = false) : instantiate args t = t :=
  instantiate_of_substitute (substitute_of_closed args [] t h)

/-- An instance has the name of its type. -/
theorem name?_instantiate (args : List TypeName) {t : TypeName} (h : t.name?.isSome = true) :
    (t.instantiate args).name? = t.name? := by
  cases t with
  | named name ts => rfl
  | _ => cases h

end TypeName

/-! ## Bases -/

namespace SymbolTable

variable {symbols : SymbolTable} {c d t : TypeName}

/-- The class that a class is derived from. -/
def superclass? (symbols : SymbolTable) (c : TypeName) : Option TypeName :=
  (symbols.base? c).map (·.instantiate c.args)

/-- A class is derived from a type in zero or more steps. -/
def Inherits (symbols : SymbolTable) : TypeName → TypeName → Prop :=
  Relation.ReflTransGen fun c d => symbols.superclass? c = some d

/-- A type is reached from a class by zero or more registered bases, as they are written. -/
def Reaches (symbols : SymbolTable) : TypeName → TypeName → Prop :=
  Relation.ReflTransGen fun c d => symbols.base? c = some d

/-- The type after a number of registered bases. -/
def baseAfter (symbols : SymbolTable) : Nat → TypeName → Option TypeName
  | 0, c => some c
  | n + 1, c => (symbols.base? c).bind (symbols.baseAfter n)

/-- Chains of bases are short: they do not cycle and have fewer links than classes are looked at. -/
def HasShortChains (symbols : SymbolTable) : Prop :=
  ∀ c, symbols.baseAfter hierarchyDepth c = none

/-- Registered bases are classes: named types, with or without placeholders inside. -/
def HasNamedBases (symbols : SymbolTable) : Prop :=
  ∀ c b, symbols.base? c = some b → b.name?.isSome = true

/-- Bases may be gone up in two parts. -/
theorem baseAfter_add (m n : Nat) (c : TypeName) :
    symbols.baseAfter (m + n) c = (symbols.baseAfter m c).bind (symbols.baseAfter n) := by
  induction m generalizing c with
  | zero => rw [Nat.zero_add]; rfl
  | succ m ih =>
    rw [Nat.succ_add, baseAfter, baseAfter, Option.bind_assoc]
    congr 1
    funext b
    exact ih b

/-- A type is reached if it is some base of the other. -/
theorem reaches_iff_exists_baseAfter :
    symbols.Reaches c t ↔ ∃ n, symbols.baseAfter n c = some t := by
  constructor
  · intro h
    induction h using Relation.ReflTransGen.head_induction_on with
    | refl => exact ⟨0, rfl⟩
    | head hstep _ ih =>
      obtain ⟨n, hn⟩ := ih
      refine ⟨n + 1, ?_⟩
      rw [baseAfter, hstep]
      exact hn
  · rintro ⟨n, hn⟩
    induction n generalizing c with
    | zero =>
      cases hn
      exact .refl
    | succ n ih =>
      obtain ⟨b, hb, hrest⟩ := Option.bind_eq_some_iff.1 hn
      exact .head hb (ih hrest)

/-- The test looks at the types after fewer bases than its depth. -/
theorem derives_iff_exists_baseAfter {depth : Nat} :
    symbols.derives t depth c = true ↔ ∃ n < depth, symbols.baseAfter n c = some t := by
  induction depth generalizing c with
  | zero =>
    rw [derives]
    exact iff_of_false Bool.false_ne_true fun ⟨n, hn, _⟩ => absurd hn (Nat.not_lt_zero n)
  | succ depth ih =>
    rw [derives, Bool.or_eq_true, decide_eq_true_iff]
    constructor
    · rintro (rfl | hrest)
      · exact ⟨0, Nat.succ_pos depth, rfl⟩
      · split at hrest
        · rename_i b hb
          obtain ⟨n, hn, hafter⟩ := ih.1 hrest
          refine ⟨n + 1, Nat.succ_lt_succ hn, ?_⟩
          rw [baseAfter, hb]
          exact hafter
        · cases hrest
    · rintro ⟨n, hn, hafter⟩
      cases n with
      | zero => exact .inl (Option.some.inj hafter)
      | succ n =>
        obtain ⟨b, hb, hrest⟩ := Option.bind_eq_some_iff.1 hafter
        right
        rw [hb]
        exact ih.2 ⟨n, Nat.lt_of_succ_lt_succ hn, hrest⟩

/-- **The test goes by the bases as they are written.** In a hierarchy of short chains it looks at
all of them. -/
theorem derives_iff_reaches (h : symbols.HasShortChains) :
    symbols.derives t hierarchyDepth c = true ↔ symbols.Reaches c t := by
  rw [derives_iff_exists_baseAfter, reaches_iff_exists_baseAfter]
  refine ⟨fun ⟨n, _, hafter⟩ => ⟨n, hafter⟩, fun ⟨n, hafter⟩ => ⟨n, ?_, hafter⟩⟩
  by_contra hle
  obtain ⟨k, rfl⟩ := Nat.exists_eq_add_of_le (Nat.le_of_not_lt hle)
  rw [baseAfter_add, h c] at hafter
  cases hafter

/-! ## The same classes with other arguments -/

/-- A class has one base, whatever its arguments are. -/
theorem base?_congr (h : c.name? = d.name?) : symbols.base? c = symbols.base? d := by
  unfold base?
  rw [h]

/-- Only a type with a name has a base. -/
theorem isSome_name?_of_base? {b : TypeName} (h : symbols.base? c = some b) :
    c.name?.isSome = true := by
  obtain ⟨name, hname, -⟩ := Option.bind_eq_some_iff.1 h
  rw [hname]
  rfl

/-- What the test finds of a type: the class itself, or a type that a class of its hierarchy has for
its registered base as it is written. -/
def Recognises (symbols : SymbolTable) (c t : TypeName) : Prop :=
  c = t ∨ ∃ d, symbols.Inherits c d ∧ symbols.base? d = some t

/-- The classes that are passed through as they are written are the classes of the hierarchy, with
other arguments. -/
theorem exists_inherits_of_reaches (h : symbols.Reaches c d) :
    ∃ e, symbols.Inherits c e ∧ (d = e ∨ ∃ args, e = d.instantiate args) := by
  induction h with
  | refl => exact ⟨c, .refl, .inl rfl⟩
  | @tail d b _ hstep ih =>
    obtain ⟨e, he, hde⟩ := ih
    have hname : e.name? = d.name? := by
      obtain rfl | ⟨args, rfl⟩ := hde
      · rfl
      · exact TypeName.name?_instantiate args (isSome_name?_of_base? hstep)
    refine ⟨b.instantiate e.args, he.tail ?_, .inr ⟨e.args, rfl⟩⟩
    rw [superclass?, base?_congr hname, hstep]
    rfl

/-- The classes of the hierarchy are those that are passed through, if all bases are classes. -/
theorem exists_reaches_of_inherits (hnamed : symbols.HasNamedBases) (h : symbols.Inherits c d) :
    ∃ e, symbols.Reaches c e ∧ e.name? = d.name? := by
  induction h with
  | refl => exact ⟨c, .refl, rfl⟩
  | @tail d b _ hstep ih =>
    obtain ⟨e, he, hname⟩ := ih
    obtain ⟨written, hwritten, rfl⟩ := Option.map_eq_some_iff.1 hstep
    refine ⟨written, he.tail ((base?_congr hname).trans hwritten), ?_⟩
    exact (TypeName.name?_instantiate d.args (hnamed _ _ hwritten)).symm

/-- Everything that is reached is found. -/
theorem recognises_of_reaches (h : symbols.Reaches c t) : symbols.Recognises c t := by
  rcases Relation.ReflTransGen.cases_tail h with rfl | ⟨d, hd, hstep⟩
  · exact .inl rfl
  · obtain ⟨e, he, hde⟩ := exists_inherits_of_reaches hd
    refine .inr ⟨e, he, (base?_congr ?_).trans hstep⟩
    obtain rfl | ⟨args, rfl⟩ := hde
    · rfl
    · exact TypeName.name?_instantiate args (isSome_name?_of_base? hstep)

/-- **The test finds** the class itself and the types that classes of its hierarchy have for their
registered bases as they are written. -/
theorem derives_iff_recognises (hshort : symbols.HasShortChains) (hnamed : symbols.HasNamedBases) :
    symbols.derives t hierarchyDepth c = true ↔ symbols.Recognises c t := by
  rw [derives_iff_reaches hshort]
  refine ⟨recognises_of_reaches, ?_⟩
  rintro (rfl | ⟨d, hd, hbase⟩)
  · exact .refl
  · obtain ⟨e, he, hname⟩ := exists_reaches_of_inherits hnamed hd
    exact he.tail ((base?_congr hname).trans hbase)

/-- What is found of a closed type is right. -/
theorem Recognises.inherits (ht : t.hasPlaceholders = false) (h : symbols.Recognises c t) :
    symbols.Inherits c t := by
  rcases h with rfl | ⟨d, hd, hbase⟩
  · exact .refl
  · refine hd.tail ?_
    rw [superclass?, hbase]
    exact congrArg some (TypeName.instantiate_of_closed d.args ht)

/-- Where no class of the hierarchy has a base with placeholders, the bases as they are written are
the hierarchy. -/
theorem reaches_of_inherits
    (hclosed : ∀ d b, symbols.Inherits c d → symbols.base? d = some b → b.hasPlaceholders = false)
    (h : symbols.Inherits c t) : symbols.Reaches c t := by
  induction h with
  | refl => exact .refl
  | @tail d e hd hstep ih =>
    obtain ⟨b, hb, rfl⟩ := Option.map_eq_some_iff.1 hstep
    rw [TypeName.instantiate_of_closed d.args (hclosed d b hd hb)]
    exact ih.tail hb

end SymbolTable

end Hotswap
