import Hotswap.Method
import Hotswap.Proofs.Signature
import Mathlib

/-!
# Replacing placeholders

What becomes of a type name when its placeholders are replaced, and of the signatures that are made
of type names.

* A name without placeholders stays as it is (`substitute_of_closed`), and a name whose placeholders
  are replaced by names without any has none (`closed_of_substitute`).
* Replacing keeps names that can be read (`wellFormed_of_substitute`), and so does passing to the
  open definition (`wellFormed_definition`).
-/

namespace Hotswap

namespace TypeName

variable {typeArgs methodArgs : List TypeName}

/-- Types have no placeholders if each of them has none. -/
theorem anyPlaceholders_eq_false_iff {ts : List TypeName} :
    anyPlaceholders ts = false ↔ ∀ t ∈ ts, t.hasPlaceholders = false := by
  induction ts with
  | nil => simp [anyPlaceholders]
  | cons t rest ih => simp [anyPlaceholders, ih]

/-- Types are well formed if each of them is. -/
theorem allWellFormed_iff {ts : List TypeName} : AllWellFormed ts ↔ ∀ t ∈ ts, t.WellFormed := by
  induction ts with
  | nil => simp [AllWellFormed]
  | cons t rest ih => simp [AllWellFormed, ih]

/-- The arguments of a well formed type are. -/
theorem allWellFormed_args {t : TypeName} (h : t.WellFormed) : AllWellFormed t.args := by
  cases t with
  | named name args => exact h.2.2.2
  | typeParam index => trivial
  | methodParam index => trivial
  | suffixed element suffix => trivial

/-- Those of a closed type are closed. -/
theorem anyPlaceholders_args {t : TypeName} (h : t.hasPlaceholders = false) :
    anyPlaceholders t.args = false := by
  cases t with
  | named name args => exact h
  | typeParam index => rfl
  | methodParam index => rfl
  | suffixed element suffix => rfl

/-! ## Inversion -/

/-- A name is substituted in by substituting in its arguments. -/
theorem substitute_named {name : String} {args : List TypeName} {u : TypeName}
    (h : substitute typeArgs methodArgs (.named name args) = .ok u) :
    ∃ us, substituteAll typeArgs methodArgs args = .ok us ∧ u = .named name us := by
  rw [substitute] at h
  split at h
  · rename_i us hus
    exact ⟨us, hus, (Except.ok.inj h).symm⟩
  · cases h

/-- A type with a suffix is substituted in by substituting in its element. -/
theorem substitute_suffixed {element u : TypeName} {suffix : Suffix}
    (h : substitute typeArgs methodArgs (.suffixed element suffix) = .ok u) :
    ∃ v, substitute typeArgs methodArgs element = .ok v ∧ u = .suffixed v suffix := by
  rw [substitute] at h
  split at h
  · rename_i v hv
    exact ⟨v, hv, (Except.ok.inj h).symm⟩
  · cases h

/-- A parameter of the type becomes one of the arguments of the type. -/
theorem mem_of_substitute_typeParam {index : UInt32} {u : TypeName}
    (h : substitute typeArgs methodArgs (.typeParam index) = .ok u) : u ∈ typeArgs := by
  rw [substitute] at h
  split at h
  · rename_i arg harg
    cases h
    exact List.mem_of_getElem? harg
  · cases h

/-- One of the method becomes one of those of the method. -/
theorem mem_of_substitute_methodParam {index : UInt32} {u : TypeName}
    (h : substitute typeArgs methodArgs (.methodParam index) = .ok u) : u ∈ methodArgs := by
  rw [substitute] at h
  split at h
  · rename_i arg harg
    cases h
    exact List.mem_of_getElem? harg
  · cases h

/-- Several types are substituted in one after another. -/
theorem substituteAll_cons {t : TypeName} {ts us : List TypeName}
    (h : substituteAll typeArgs methodArgs (t :: ts) = .ok us) :
    ∃ u rest, substitute typeArgs methodArgs t = .ok u ∧
      substituteAll typeArgs methodArgs ts = .ok rest ∧ us = u :: rest := by
  rw [substituteAll] at h
  split at h
  · cases h
  · rename_i u hu
    split at h
    · cases h
    · rename_i rest hrest
      exact ⟨u, rest, hu, hrest, (Except.ok.inj h).symm⟩

/-- There are as many after it as before. -/
theorem length_substituteAll {ts us : List TypeName}
    (h : substituteAll typeArgs methodArgs ts = .ok us) : us.length = ts.length := by
  induction ts generalizing us with
  | nil =>
    rw [substituteAll] at h
    cases h
    rfl
  | cons t rest ih =>
    obtain ⟨u, us', -, hrest, rfl⟩ := substituteAll_cons h
    rw [List.length_cons, List.length_cons, ih hrest]

/-! ## Names without placeholders -/

mutual

/-- A name without placeholders stays as it is. -/
theorem substitute_of_closed (typeArgs methodArgs : List TypeName) :
    (t : TypeName) → t.hasPlaceholders = false → substitute typeArgs methodArgs t = .ok t
  | .named name args, h => by
    rw [hasPlaceholders] at h
    rw [substitute, substituteAll_of_closed typeArgs methodArgs args h]
  | .typeParam _, h => by
    rw [hasPlaceholders] at h
    cases h
  | .methodParam _, h => by
    rw [hasPlaceholders] at h
    cases h
  | .suffixed element suffix, h => by
    rw [hasPlaceholders] at h
    rw [substitute, substitute_of_closed typeArgs methodArgs element h]

/-- Closed types stay as they are. -/
theorem substituteAll_of_closed (typeArgs methodArgs : List TypeName) :
    (ts : List TypeName) → anyPlaceholders ts = false →
      substituteAll typeArgs methodArgs ts = .ok ts
  | [], _ => rfl
  | t :: rest, h => by
    rw [anyPlaceholders, Bool.or_eq_false_iff] at h
    rw [substituteAll, substitute_of_closed typeArgs methodArgs t h.1,
      substituteAll_of_closed typeArgs methodArgs rest h.2]

end

mutual

/-- Placeholders that are replaced by names without placeholders are gone. -/
theorem closed_of_substitute (htype : anyPlaceholders typeArgs = false)
    (hmethod : anyPlaceholders methodArgs = false) : (t : TypeName) → {u : TypeName} →
    substitute typeArgs methodArgs t = .ok u → u.hasPlaceholders = false
  | .named name args, u, h => by
    obtain ⟨us, hus, rfl⟩ := substitute_named h
    rw [hasPlaceholders]
    exact closed_of_substituteAll htype hmethod args hus
  | .typeParam _, u, h =>
    anyPlaceholders_eq_false_iff.1 htype u (mem_of_substitute_typeParam h)
  | .methodParam _, u, h =>
    anyPlaceholders_eq_false_iff.1 hmethod u (mem_of_substitute_methodParam h)
  | .suffixed element suffix, u, h => by
    obtain ⟨v, hv, rfl⟩ := substitute_suffixed h
    rw [hasPlaceholders]
    exact closed_of_substitute htype hmethod element hv

/-- With closed arguments the results are closed. -/
theorem closed_of_substituteAll (htype : anyPlaceholders typeArgs = false)
    (hmethod : anyPlaceholders methodArgs = false) : (ts : List TypeName) → {us : List TypeName} →
    substituteAll typeArgs methodArgs ts = .ok us → anyPlaceholders us = false
  | [], us, h => by
    rw [substituteAll] at h
    cases h
    rfl
  | t :: rest, us, h => by
    obtain ⟨u, us', hu, hrest, rfl⟩ := substituteAll_cons h
    rw [anyPlaceholders, Bool.or_eq_false_iff]
    exact ⟨closed_of_substitute htype hmethod t hu,
      closed_of_substituteAll htype hmethod rest hrest⟩

end

/-! ## Names that can be read -/

mutual

/-- Replacing placeholders by names that can be read keeps a name one that can be read. -/
theorem wellFormed_of_substitute (htype : AllWellFormed typeArgs)
    (hmethod : AllWellFormed methodArgs) : (t : TypeName) → t.WellFormed → {u : TypeName} →
    substitute typeArgs methodArgs t = .ok u → u.WellFormed
  | .named name args, hwf, u, h => by
    obtain ⟨us, hus, rfl⟩ := substitute_named h
    obtain ⟨hname, hfirst, hopens, hargs⟩ := hwf
    refine ⟨hname, hfirst, fun hne => hopens ?_,
      wellFormed_of_substituteAll htype hmethod args hargs hus⟩
    rintro rfl
    exact hne (List.length_eq_zero_iff.1 (length_substituteAll hus))
  | .typeParam _, _, u, h => allWellFormed_iff.1 htype u (mem_of_substitute_typeParam h)
  | .methodParam _, _, u, h => allWellFormed_iff.1 hmethod u (mem_of_substitute_methodParam h)
  | .suffixed element suffix, hwf, u, h => by
    obtain ⟨v, hv, rfl⟩ := substitute_suffixed h
    have hv := wellFormed_of_substitute htype hmethod element hwf hv
    exact hv

/-- With well formed arguments well formed types stay so. -/
theorem wellFormed_of_substituteAll (htype : AllWellFormed typeArgs)
    (hmethod : AllWellFormed methodArgs) : (ts : List TypeName) → AllWellFormed ts →
    {us : List TypeName} → substituteAll typeArgs methodArgs ts = .ok us → AllWellFormed us
  | [], _, us, h => by
    rw [substituteAll] at h
    cases h
    trivial
  | t :: rest, hwf, us, h => by
    obtain ⟨u, us', hu, hrest, rfl⟩ := substituteAll_cons h
    exact ⟨wellFormed_of_substitute htype hmethod t hwf.1 hu,
      wellFormed_of_substituteAll htype hmethod rest hwf.2 hrest⟩

end

/-! ## The open definition -/

/-- A type with a name is a name with arguments. -/
theorem exists_named {t : TypeName} (h : t.name?.isSome = true) :
    ∃ name args, t = .named name args := by
  cases t with
  | named name args => exact ⟨name, args, rfl⟩
  | typeParam index => cases h
  | methodParam index => cases h
  | suffixed element suffix => cases h

/-- A definition has the name of its type. -/
theorem name?_definition (t : TypeName) : t.definition.name? = t.name? := by
  cases t <;> rfl

/-- A type without a name is its own definition. -/
theorem definition_of_name?_eq_none {t : TypeName} (h : t.name? = none) :
    t.definition = t := by
  cases t with
  | named name args => cases h
  | typeParam index => rfl
  | methodParam index => rfl
  | suffixed element suffix => rfl

/-- The definition of a named type depends on the name and on how many arguments there are, so
replacing placeholders does not change it. -/
theorem definition_of_substitute_named {name : String} {args : List TypeName} {u : TypeName}
    (h : substitute typeArgs methodArgs (.named name args) = .ok u) :
    u.definition = (TypeName.named name args).definition := by
  obtain ⟨us, hus, rfl⟩ := substitute_named h
  simp only [definition, arity, length_substituteAll hus]

/-- The parameters of a type are well formed. -/
theorem allWellFormed_typeParams (count : Nat) : AllWellFormed (typeParams count) := by
  rw [allWellFormed_iff]
  intro t ht
  obtain ⟨i, -, rfl⟩ := List.mem_map.1 ht
  trivial

/-- So are those of a method. -/
theorem allWellFormed_methodParams (count : Nat) : AllWellFormed (methodParams count) := by
  rw [allWellFormed_iff]
  intro t ht
  obtain ⟨i, -, rfl⟩ := List.mem_map.1 ht
  trivial

end TypeName

/-- A name that does not end where a segment may open is followed by an argument list. -/
theorem takeName_open {depth : Nat} {fresh : Bool} {name : List Char}
    (h : takeName depth fresh name = some (name, [])) (hempty : name = [] → fresh = false)
    (hlast : ∀ c, name.getLast? = some c → c ≠ '.' ∧ c ≠ '/') (rest : List Char) :
    takeName depth fresh (name ++ '<' :: rest) = some (name, '<' :: rest) := by
  have hangle : isNameChar '<' = false := by decide
  fun_induction takeName depth fresh name with
  | case1 fresh => simp [takeName, hempty rfl, hangle]
  | case2 => cases h
  | case3 fresh c cs hopen ih =>
    obtain ⟨⟨name₁, rest₁⟩, hname, heq⟩ := Option.map_eq_some_iff.1 h
    cases heq
    have hrec := ih hname (fun _ => rfl) fun c' hc' => hlast c' (by simp [List.getLast?_cons, hc'])
    simp [takeName, hopen, hrec]
  | case4 fresh c cs hopen hchar ih =>
    obtain ⟨⟨name₁, rest₁⟩, hname, heq⟩ := Option.map_eq_some_iff.1 h
    cases heq
    have hrec := ih hname
      (by
        rintro rfl
        have hc := hlast c rfl
        simp [hc.1, hc.2])
      fun c' hc' => hlast c' (by simp [List.getLast?_cons, hc'])
    simp [takeName, hopen, hchar, hrec]
  | case5 fresh c cs hopen hchar => cases h
  | case6 fresh depth c cs depth' =>
    rename_i ih
    obtain ⟨⟨name₁, rest₁⟩, hname, heq⟩ := Option.map_eq_some_iff.1 h
    cases heq
    have hrec : takeName depth' false (cs ++ '<' :: rest) = some (cs, '<' :: rest) :=
      ih hname (fun _ => rfl) fun c' hc' => hlast c' (by simp [List.getLast?_cons, hc'])
    show (takeName depth' false (cs ++ '<' :: rest)).map _ = _
    rw [hrec]
    rfl

/-- A name that declares a number of parameters ends in a digit. -/
theorem TypeName.getLast?_of_declaredCount? {cs : List Char} {n : Nat}
    (h : declaredCount? cs = some n) : ∃ c, cs.getLast? = some c ∧ c.isDigit = true := by
  unfold declaredCount? at h
  extract_lets digits at h
  split at h
  · cases h
  · rename_i hdigits
    simp only [Bool.or_eq_true, List.isEmpty_iff, Bool.not_eq_true', not_or,
      Bool.not_eq_false] at hdigits
    obtain ⟨hne, hall⟩ := hdigits
    refine ⟨digits.getLast hne, ?_, List.all_eq_true.1 hall _ (List.getLast_mem hne)⟩
    -- At most a plus sign stands in front of the digits.
    have hlast : cs.getLast? = digits.getLast? := by
      subst digits
      split at hne
      · exact List.getLast?_cons_of_ne_nil hne
      · rfl
    rw [hlast, List.getLast?_eq_some_getLast hne]

/-- A name that declares generic parameters ends in a digit. -/
theorem TypeName.getLast?_of_declaredArity {name : String} (h : 0 < declaredArity name) :
    ∃ c, name.toList.getLast? = some c ∧ c.isDigit = true := by
  unfold declaredArity at h
  extract_lets cs at h
  split at h
  · obtain hcount | ⟨n, hcount⟩ :=
      Option.eq_none_or_eq_some (declaredCount? (cs.reverse.takeWhile (· != '\x60')).reverse)
    · simp [hcount] at h
    · obtain ⟨c, hc, hdigit⟩ := getLast?_of_declaredCount? hcount
      refine ⟨c, ?_, hdigit⟩
      rw [List.getLast?_reverse] at hc
      obtain ⟨tail, htail⟩ := List.head?_eq_some_iff.1 hc
      have hprefix := List.takeWhile_prefix (l := cs.reverse) (· != '\x60')
      rw [htail] at hprefix
      obtain ⟨rest, hrest⟩ := hprefix
      rw [← List.head?_reverse]
      show cs.reverse.head? = some c
      rw [← hrest]
      rfl
  · cases h

/-- An argument list can open after a name that declares generic parameters. -/
theorem opensArgs_of_declaredArity {name : String} (hname : IsName name)
    (h : 0 < TypeName.declaredArity name) : OpensArgs name := by
  intro rest
  have htaken := hname.taken [] (headNot_nil _)
  rw [List.append_nil] at htaken
  obtain ⟨c, hlast, hdigit⟩ := TypeName.getLast?_of_declaredArity h
  refine takeName_open htaken (fun hempty => absurd hempty hname.nonempty) (fun c' hc' => ?_) rest
  rw [hlast] at hc'
  cases hc'
  constructor
  · rintro rfl
    exact absurd hdigit (by decide)
  · rintro rfl
    exact absurd hdigit (by decide)

namespace TypeName

/-- The definition of a name that can be read can be read. -/
theorem wellFormed_definition {t : TypeName} (h : t.WellFormed) : t.definition.WellFormed := by
  cases t with
  | named name args =>
    obtain ⟨hname, hfirst, hopens, -⟩ := h
    refine ⟨hname, hfirst, fun hne => ?_, allWellFormed_typeParams _⟩
    by_cases hargs : args = []
    · subst hargs
      refine opensArgs_of_declaredArity hname (Nat.pos_of_ne_zero fun hzero => hne ?_)
      simp [arity, hzero, typeParams]
    · exact hopens hargs
  | typeParam index => trivial
  | methodParam index => trivial
  | suffixed element suffix => exact h

end TypeName

end Hotswap
