import Hotswap.Proofs.Method.Instantiation

/-!
# Replacing placeholders twice

The text of a type name is made of words that stay and of placeholders (`TypeName.tokens`), and so
is the text of a signature and of a field reference. Replacing the placeholders of any of them
follows the same laws, `SubstitutionLaws`:

* it succeeds when both lists of arguments reach to every placeholder, and else the error names the
  leftmost one that they do not reach to;
* replacing the placeholders of a result is the same as replacing them in the arguments first;
* arguments without placeholders leave none in the result, and what has no placeholder stays as it
  is, whatever the arguments.

For type names these go by recursion over the name together with the lists in it. A signature and a
field reference are tuples of type names and of texts, so theirs follow from rules for a tuple
(`Substitutes.pair`, `Substitutes.option`, `Substitutes.const`) and from the records being such
tuples (`Substitutes.transport`).
-/

namespace Hotswap

/-- A placeholder of a type name. -/
inductive Placeholder where
  /-- `!N`, a generic parameter of the declaring type. -/
  | ofType (index : UInt32)
  /-- `!!N`, a generic parameter of the method. -/
  | ofMethod (index : UInt32)
  deriving DecidableEq, Repr

namespace Placeholder

/-- The text of a placeholder. -/
def text : Placeholder → String
  | ofType index => "!" ++ Nat.repr index.toNat
  | ofMethod index => "!!" ++ Nat.repr index.toNat

/-- Whether the list of arguments that a placeholder looks into reaches to it. -/
def Bound (typeArgs methodArgs : List TypeName) : Placeholder → Prop
  | ofType index => index.toNat < typeArgs.length
  | ofMethod index => index.toNat < methodArgs.length

instance (typeArgs methodArgs : List TypeName) : DecidablePred (Bound typeArgs methodArgs)
  | ofType index => inferInstanceAs (Decidable (index.toNat < typeArgs.length))
  | ofMethod index => inferInstanceAs (Decidable (index.toNat < methodArgs.length))

/-- The first placeholder of a list that the arguments do not reach to. -/
def firstUnbound (typeArgs methodArgs : List TypeName) (ps : List Placeholder) :
    Option Placeholder :=
  ps.find? fun p => !decide (p.Bound typeArgs methodArgs)

end Placeholder

/-- A part of the text of a type name. -/
inductive Token where
  /-- Words and marks, which stay. -/
  | words (text : String)
  /-- A placeholder. -/
  | placeholder (p : Placeholder)

namespace Token

/-- The text of a token. -/
def text : Token → String
  | words text => text
  | placeholder p => p.text

/-- The placeholder that a token is. -/
def placeholder? : Token → Option Placeholder
  | words _ => none
  | placeholder p => some p

/-- The text of several tokens one after another. -/
def join : List Token → String
  | [] => ""
  | token :: rest => token.text ++ join rest

/-- Tokens one after another make texts one after another. -/
@[simp] theorem join_append (xs ys : List Token) : join (xs ++ ys) = join xs ++ join ys := by
  induction xs with
  | nil => simp [join]
  | cons x xs ih => simp [join, ih, String.append_assoc]

/-- The placeholders among several tokens, from left to right. -/
def placeholders (tokens : List Token) : List Placeholder := tokens.filterMap placeholder?

/-- No token is no placeholder. -/
@[simp] theorem placeholders_nil : placeholders [] = [] := rfl

/-- Tokens one after another have their placeholders one after another. -/
@[simp] theorem placeholders_append (xs ys : List Token) :
    placeholders (xs ++ ys) = placeholders xs ++ placeholders ys := List.filterMap_append

/-- Words are no placeholder. -/
@[simp] theorem placeholders_words_cons (text : String) (rest : List Token) :
    placeholders (words text :: rest) = placeholders rest := rfl

/-- A placeholder is met where it stands. -/
@[simp] theorem placeholders_placeholder_cons (p : Placeholder) (rest : List Token) :
    placeholders (placeholder p :: rest) = p :: placeholders rest := rfl

end Token

/-! ## The tokens of a text -/

namespace TypeName

mutual

/-- The tokens of the text of a type name. -/
def tokens : TypeName → List Token
  | .named name args =>
    match args with
    | [] => [.words name]
    | t :: rest => .words name :: .words "<" :: (t.tokens ++ tokensTail rest ++ [.words ">"])
  | .typeParam index => [.placeholder (.ofType index)]
  | .methodParam index => [.placeholder (.ofMethod index)]
  | .suffixed element suffix => element.tokens ++ [.words suffix.text]

/-- The tokens of the items of a list after the first one, each after a comma. -/
def tokensTail : List TypeName → List Token
  | [] => []
  | t :: rest => .words "," :: (t.tokens ++ tokensTail rest)

end

/-- The tokens of a list, with commas between the items. -/
def listTokens : List TypeName → List Token
  | [] => []
  | t :: rest => t.tokens ++ tokensTail rest

mutual

/-- **The tokens of a type make its text.** -/
theorem join_tokens : (t : TypeName) → Token.join t.tokens = t.render
  | .named name [] => by simp [tokens, render, Token.join, Token.text]
  | .named name (t :: rest) => by
    simp [tokens, render, Token.join, Token.text, join_tokens t, join_tokensTail rest,
      String.append_assoc]
  | .typeParam index => by simp [tokens, render, Token.join, Token.text, Placeholder.text]
  | .methodParam index => by simp [tokens, render, Token.join, Token.text, Placeholder.text]
  | .suffixed element suffix => by
    simp [tokens, render, Token.join, Token.text, join_tokens element]

/-- Those of further types in a list make the text of these. -/
theorem join_tokensTail : (ts : List TypeName) → Token.join (tokensTail ts) = renderTail ts
  | [] => rfl
  | t :: rest => by
    simp [tokensTail, renderTail, Token.join, Token.text, join_tokens t, join_tokensTail rest,
      String.append_assoc]

end

/-- Those of a list make the text of the list. -/
theorem join_listTokens (ts : List TypeName) : Token.join (listTokens ts) = renderList ts := by
  cases ts with
  | nil => rfl
  | cons t rest => simp [listTokens, renderList, join_tokens, join_tokensTail]

/-- The placeholders of a type name, from left to right. -/
def placeholders (t : TypeName) : List Placeholder := Token.placeholders t.tokens

/-- The placeholders of several type names, from left to right. -/
def allPlaceholders (ts : List TypeName) : List Placeholder := ts.flatMap placeholders

/-- The placeholders of further types are met one type after another. -/
theorem placeholders_tokensTail (ts : List TypeName) :
    Token.placeholders (tokensTail ts) = allPlaceholders ts := by
  induction ts with
  | nil => rfl
  | cons t rest ih => simp [tokensTail, ih, allPlaceholders, placeholders]

/-- So are those of a list. -/
theorem placeholders_listTokens (ts : List TypeName) :
    Token.placeholders (listTokens ts) = allPlaceholders ts := by
  cases ts with
  | nil => rfl
  | cons t rest =>
    simp [listTokens, placeholders_tokensTail, allPlaceholders, placeholders]

/-- A name has the placeholders of its arguments. -/
@[simp] theorem placeholders_named (name : String) (args : List TypeName) :
    (named name args).placeholders = allPlaceholders args := by
  cases args with
  | nil => rfl
  | cons t rest =>
    simp [placeholders, tokens, placeholders_tokensTail, allPlaceholders]

/-- A parameter of the type is a placeholder. -/
@[simp] theorem placeholders_typeParam (index : UInt32) :
    (typeParam index).placeholders = [.ofType index] := rfl

/-- So is a parameter of the method. -/
@[simp] theorem placeholders_methodParam (index : UInt32) :
    (methodParam index).placeholders = [.ofMethod index] := rfl

/-- A suffix is none. -/
@[simp] theorem placeholders_suffixed (element : TypeName) (suffix : Suffix) :
    (suffixed element suffix).placeholders = element.placeholders := by
  simp [placeholders, tokens]

/-- No types have no placeholders. -/
@[simp] theorem allPlaceholders_nil : allPlaceholders [] = [] := rfl

/-- The placeholders of the first type come first. -/
@[simp] theorem allPlaceholders_cons (t : TypeName) (rest : List TypeName) :
    allPlaceholders (t :: rest) = t.placeholders ++ allPlaceholders rest := rfl

mutual

/-- A type is closed exactly if no placeholder is met in it. -/
theorem hasPlaceholders_eq_false_iff :
    (t : TypeName) → (t.hasPlaceholders = false ↔ t.placeholders = [])
  | .named name args => by
    rw [hasPlaceholders, placeholders_named, anyPlaceholders_eq_false_iff_nil args]
  | .typeParam index => by simp [hasPlaceholders]
  | .methodParam index => by simp [hasPlaceholders]
  | .suffixed element suffix => by
    rw [hasPlaceholders, placeholders_suffixed, hasPlaceholders_eq_false_iff element]

/-- Types are closed exactly if none is met in any of them. -/
theorem anyPlaceholders_eq_false_iff_nil :
    (ts : List TypeName) → (anyPlaceholders ts = false ↔ allPlaceholders ts = [])
  | [] => by simp [anyPlaceholders]
  | t :: rest => by
    rw [anyPlaceholders, Bool.or_eq_false_iff, hasPlaceholders_eq_false_iff t,
      anyPlaceholders_eq_false_iff_nil rest, allPlaceholders_cons, List.append_eq_nil_iff]

end

end TypeName

/-! ## The placeholder that an error names -/

namespace Placeholder

variable {typeArgs methodArgs : List TypeName} {p : Placeholder} {ps qs : List Placeholder}

/-- A single placeholder is the first unbound one exactly if it is unbound. -/
theorem firstUnbound_singleton_eq_some_iff {q : Placeholder} :
    firstUnbound typeArgs methodArgs [q] = some p ↔ ¬ q.Bound typeArgs methodArgs ∧ q = p := by
  by_cases hbound : q.Bound typeArgs methodArgs <;> simp [firstUnbound, hbound]

/-- The first unbound placeholder stands in the first part, or in the second one if all in the first
are bound. -/
theorem firstUnbound_append_eq_some_iff :
    firstUnbound typeArgs methodArgs (ps ++ qs) = some p ↔
      firstUnbound typeArgs methodArgs ps = some p ∨
        firstUnbound typeArgs methodArgs ps = none ∧
          firstUnbound typeArgs methodArgs qs = some p := by
  rw [firstUnbound, List.find?_append, Option.or_eq_some_iff]
  rfl

end Placeholder

/-- A computation fails when there is a placeholder that the arguments do not reach to, and its
error names the leftmost one. -/
def Reports {α : Type} (typeArgs methodArgs : List TypeName) (ps : List Placeholder)
    (x : Except FormatError α) : Prop :=
  ∀ e, x = .error e ↔ ∃ p, Placeholder.firstUnbound typeArgs methodArgs ps = some p ∧
    e = .unboundPlaceholder p.text

namespace Reports

variable {α β γ : Type} {typeArgs methodArgs : List TypeName} {ps qs : List Placeholder}
  {x : Except FormatError α} {y : Except FormatError β}

/-- A result in which no placeholder was met reports none. -/
theorem ok (a : α) : Reports typeArgs methodArgs [] (.ok a) :=
  fun e => ⟨nofun, fun ⟨p, hp, _⟩ => by cases hp⟩

/-- There is a result exactly if no placeholder is unbound. -/
theorem succeeds (h : Reports typeArgs methodArgs ps x) :
    (∃ a, x = .ok a) ↔ Placeholder.firstUnbound typeArgs methodArgs ps = none := by
  cases hps : Placeholder.firstUnbound typeArgs methodArgs ps with
  | none =>
    refine iff_of_true ?_ rfl
    cases x with
    | ok a => exact ⟨a, rfl⟩
    | error e =>
      obtain ⟨p, hp, -⟩ := (h e).1 rfl
      rw [hps] at hp
      cases hp
  | some p =>
    rw [(h _).2 ⟨p, hps, rfl⟩]
    exact iff_of_false nofun nofun

/-- A result that is changed afterwards reports the same placeholder. -/
theorem map (h : Reports typeArgs methodArgs ps x) (f : α → β) :
    Reports typeArgs methodArgs ps (f <$> x) := by
  intro e
  rw [← h e]
  cases x with
  | ok a => exact ⟨nofun, nofun⟩
  | error e' => simp [Functor.map, Except.map]

/-- A placeholder that is looked up in a list of arguments. -/
theorem lookup {p : Placeholder} {args : List TypeName} {i : Nat}
    (hbound : p.Bound typeArgs methodArgs ↔ i < args.length) :
    Reports typeArgs methodArgs [p]
      (match args[i]? with
        | some arg => .ok arg
        | none => .error (.unboundPlaceholder p.text)) := by
  intro e
  simp only [Placeholder.firstUnbound_singleton_eq_some_iff, hbound]
  by_cases hi : i < args.length
  · simp [hi]
  · simp [hi, eq_comm]

/-- Of two computations the first one that fails is the one that reports. -/
theorem both (h : Reports typeArgs methodArgs ps x) (h' : Reports typeArgs methodArgs qs y)
    (f : α → β → γ) :
    Reports typeArgs methodArgs (ps ++ qs) (do return f (← x) (← y)) := by
  intro e
  simp only [Placeholder.firstUnbound_append_eq_some_iff, or_and_right, exists_or, and_assoc,
    exists_and_left, ← h e, ← h' e, ← h.succeeds]
  cases x with
  | error e' => simp [bind, Except.bind]
  | ok a => cases y <;> simp [bind, Except.bind, pure, Except.pure]

end Reports

/-! ## What a replacement does -/

/-- One list of arguments is another one after a replacement. -/
def Substituted (typeArgs methodArgs : List TypeName) : List TypeName → List TypeName → Prop :=
  List.Forall₂ fun t u => t.substitute typeArgs methodArgs = .ok u

/-- A function replaces the placeholders of the values of a type. -/
structure Substitutes {α : Type}
    (substitute : List TypeName → List TypeName → α → Except FormatError α)
    (placeholders : α → List Placeholder) : Prop where
  /-- An error names the leftmost placeholder that the arguments do not reach to. -/
  reports : ∀ typeArgs methodArgs a,
    Reports typeArgs methodArgs (placeholders a) (substitute typeArgs methodArgs a)
  /-- Replacing the placeholders of the result is replacing them in the arguments first. -/
  composes : ∀ {typeArgs methodArgs typeArgs' methodArgs' outerType outerMethod : List TypeName}
    {a b : α}, Substituted outerType outerMethod typeArgs typeArgs' →
    Substituted outerType outerMethod methodArgs methodArgs' →
    substitute typeArgs methodArgs a = .ok b →
      ∃ c, substitute outerType outerMethod b = .ok c ∧
        substitute typeArgs' methodArgs' a = .ok c
  /-- Arguments without placeholders leave none. -/
  closes : ∀ {typeArgs methodArgs : List TypeName} {a b : α},
    TypeName.anyPlaceholders typeArgs = false → TypeName.anyPlaceholders methodArgs = false →
    substitute typeArgs methodArgs a = .ok b → placeholders b = []
  /-- What has no placeholder stays as it is. -/
  keeps : ∀ {a : α}, placeholders a = [] →
    ∀ typeArgs methodArgs, substitute typeArgs methodArgs a = .ok a

namespace TypeName

variable {typeArgs methodArgs typeArgs' methodArgs' outerType outerMethod : List TypeName}

mutual

/-- **Substitution reports the first unbound placeholder of a type.** -/
theorem reports_substitute (typeArgs methodArgs : List TypeName) : (t : TypeName) →
    Reports typeArgs methodArgs t.placeholders (substitute typeArgs methodArgs t)
  | .named name args => by
    have hargs := (reports_substituteAll typeArgs methodArgs args).map (named name)
    rw [placeholders_named, substitute]
    cases hresult : substituteAll typeArgs methodArgs args with
    | ok us => rwa [hresult] at hargs
    | error e => rwa [hresult] at hargs
  | .typeParam index => by
    rw [placeholders_typeParam, substitute]
    exact .lookup Iff.rfl
  | .methodParam index => by
    rw [placeholders_methodParam, substitute]
    exact .lookup Iff.rfl
  | .suffixed element suffix => by
    have helement := (reports_substitute typeArgs methodArgs element).map (suffixed · suffix)
    rw [placeholders_suffixed, substitute]
    cases hresult : substitute typeArgs methodArgs element with
    | ok u => rwa [hresult] at helement
    | error e => rwa [hresult] at helement

/-- So it does in several types. -/
theorem reports_substituteAll (typeArgs methodArgs : List TypeName) : (ts : List TypeName) →
    Reports typeArgs methodArgs (allPlaceholders ts) (substituteAll typeArgs methodArgs ts)
  | [] => .ok []
  | t :: rest => by
    have hboth := (reports_substitute typeArgs methodArgs t).both
      (reports_substituteAll typeArgs methodArgs rest) List.cons
    rw [allPlaceholders_cons, substituteAll]
    cases hfirst : substitute typeArgs methodArgs t with
    | error e => rwa [hfirst] at hboth
    | ok u =>
      cases hrest : substituteAll typeArgs methodArgs rest with
      | error e => rwa [hfirst, hrest] at hboth
      | ok us => rwa [hfirst, hrest] at hboth

end

/-- An argument that a placeholder is replaced by is replaced in its turn. -/
theorem exists_getElem?_of_substituted {us us' : List TypeName} {i : Nat} {u : TypeName}
    (h : Substituted outerType outerMethod us us') (hu : us[i]? = some u) :
    ∃ u', substitute outerType outerMethod u = .ok u' ∧ us'[i]? = some u' := by
  obtain ⟨hi, rfl⟩ := List.getElem?_eq_some_iff.1 hu
  obtain ⟨hlength, hall⟩ := List.forall₂_iff_get.1 h
  exact ⟨us'[i], hall i hi (hlength ▸ hi), List.getElem?_eq_getElem (hlength ▸ hi)⟩

mutual

/-- **Two substitutions are one** with the arguments substituted. -/
theorem substitute_substitute (htype : Substituted outerType outerMethod typeArgs typeArgs')
    (hmethod : Substituted outerType outerMethod methodArgs methodArgs') :
    (t : TypeName) → {u : TypeName} → substitute typeArgs methodArgs t = .ok u →
      ∃ v, substitute outerType outerMethod u = .ok v ∧
        substitute typeArgs' methodArgs' t = .ok v
  | .named name args, u, h => by
    obtain ⟨us, hus, rfl⟩ := substitute_named h
    obtain ⟨vs, hvs, hvs'⟩ := substituteAll_substituteAll htype hmethod args hus
    exact ⟨.named name vs, by rw [substitute, hvs], by rw [substitute, hvs']⟩
  | .typeParam index, u, h => by
    rw [substitute] at h
    split at h
    · rename_i arg harg
      cases h
      obtain ⟨v, hv, hv'⟩ := exists_getElem?_of_substituted htype harg
      exact ⟨v, hv, by rw [substitute, hv']⟩
    · cases h
  | .methodParam index, u, h => by
    rw [substitute] at h
    split at h
    · rename_i arg harg
      cases h
      obtain ⟨v, hv, hv'⟩ := exists_getElem?_of_substituted hmethod harg
      exact ⟨v, hv, by rw [substitute, hv']⟩
    · cases h
  | .suffixed element suffix, u, h => by
    obtain ⟨u, hu, rfl⟩ := substitute_suffixed h
    obtain ⟨v, hv, hv'⟩ := substitute_substitute htype hmethod element hu
    exact ⟨.suffixed v suffix, by rw [substitute, hv], by rw [substitute, hv']⟩

/-- So they are in several types. -/
theorem substituteAll_substituteAll (htype : Substituted outerType outerMethod typeArgs typeArgs')
    (hmethod : Substituted outerType outerMethod methodArgs methodArgs') :
    (ts : List TypeName) → {us : List TypeName} → substituteAll typeArgs methodArgs ts = .ok us →
      ∃ vs, substituteAll outerType outerMethod us = .ok vs ∧
        substituteAll typeArgs' methodArgs' ts = .ok vs
  | [], us, h => by
    rw [substituteAll] at h
    cases h
    exact ⟨[], rfl, rfl⟩
  | t :: rest, us, h => by
    obtain ⟨u, us', hu, hrest, rfl⟩ := substituteAll_cons h
    obtain ⟨v, hv, hv'⟩ := substitute_substitute htype hmethod t hu
    obtain ⟨vs, hvs, hvs'⟩ := substituteAll_substituteAll htype hmethod rest hrest
    exact ⟨v :: vs, by rw [substituteAll, hv]; simp only [hvs],
      by rw [substituteAll, hv']; simp only [hvs']⟩

end

/-- Substitution in a type follows its placeholders. -/
theorem substitutes : Substitutes substitute placeholders where
  reports := reports_substitute
  composes htype hmethod h := substitute_substitute htype hmethod _ h
  closes htype hmethod h :=
    (hasPlaceholders_eq_false_iff _).1 (closed_of_substitute htype hmethod _ h)
  keeps h typeArgs methodArgs :=
    substitute_of_closed typeArgs methodArgs _ ((hasPlaceholders_eq_false_iff _).2 h)

/-- So it does in several types. -/
theorem substitutesAll : Substitutes substituteAll allPlaceholders where
  reports := reports_substituteAll
  composes htype hmethod h := substituteAll_substituteAll htype hmethod _ h
  closes htype hmethod h :=
    (anyPlaceholders_eq_false_iff_nil _).1 (closed_of_substituteAll htype hmethod _ h)
  keeps h typeArgs methodArgs :=
    substituteAll_of_closed typeArgs methodArgs _ ((anyPlaceholders_eq_false_iff_nil _).2 h)

end TypeName

/-! ## Tuples -/

namespace Substitutes

variable {α β γ : Type} {typeArgs methodArgs : List TypeName}
  {substitute : List TypeName → List TypeName → α → Except FormatError α}
  {placeholders : α → List Placeholder}
  {substitute' : List TypeName → List TypeName → β → Except FormatError β}
  {placeholders' : β → List Placeholder}

/-- A value without placeholders that is passed on. -/
theorem const (α : Type) : Substitutes (fun _ _ (a : α) => .ok a) fun _ => [] where
  reports _ _ a := .ok a
  composes _ _ h := ⟨_, rfl, h⟩
  closes _ _ _ := rfl
  keeps _ _ _ := rfl

/-- Replaces the placeholders of one value and then those of another one. -/
def both (substitute : List TypeName → List TypeName → α → Except FormatError α)
    (substitute' : List TypeName → List TypeName → β → Except FormatError β)
    (typeArgs methodArgs : List TypeName) (x : α × β) : Except FormatError (α × β) := do
  return (← substitute typeArgs methodArgs x.1, ← substitute' typeArgs methodArgs x.2)

/-- Two parts are substituted in if each of them is. -/
theorem both_eq_ok {x y : α × β} :
    both substitute substitute' typeArgs methodArgs x = .ok y ↔
      substitute typeArgs methodArgs x.1 = .ok y.1 ∧
        substitute' typeArgs methodArgs x.2 = .ok y.2 := by
  obtain ⟨a, b⟩ := y
  simp only [both, bind_eq_ok]
  constructor
  · rintro ⟨_, ha, _, hb, h⟩
    cases h
    exact ⟨ha, hb⟩
  · rintro ⟨ha, hb⟩
    exact ⟨a, ha, b, hb, rfl⟩

/-- Substitution in two parts follows the placeholders of the first and then those of the second. -/
theorem pair (h : Substitutes substitute placeholders)
    (h' : Substitutes substitute' placeholders') :
    Substitutes (both substitute substitute')
      fun x => placeholders x.1 ++ placeholders' x.2 where
  reports typeArgs methodArgs x :=
    (h.reports typeArgs methodArgs x.1).both (h'.reports typeArgs methodArgs x.2) Prod.mk
  composes := by
    intro typeArgs methodArgs typeArgs' methodArgs' outerType outerMethod x y htype hmethod hxy
    obtain ⟨hfst, hsnd⟩ := both_eq_ok.1 hxy
    obtain ⟨a, ha, ha'⟩ := h.composes htype hmethod hfst
    obtain ⟨b, hb, hb'⟩ := h'.composes htype hmethod hsnd
    exact ⟨(a, b), both_eq_ok.2 ⟨ha, hb⟩, both_eq_ok.2 ⟨ha', hb'⟩⟩
  closes := by
    intro typeArgs methodArgs x y htype hmethod hxy
    obtain ⟨hfst, hsnd⟩ := both_eq_ok.1 hxy
    rw [h.closes htype hmethod hfst, h'.closes htype hmethod hsnd, List.append_nil]
  keeps := by
    intro x hx typeArgs methodArgs
    obtain ⟨hfst, hsnd⟩ := List.append_eq_nil_iff.1 hx
    exact both_eq_ok.2 ⟨h.keeps hfst _ _, h'.keeps hsnd _ _⟩

/-- Replaces the placeholders of a value that may be missing. -/
def optional (substitute : List TypeName → List TypeName → α → Except FormatError α)
    (typeArgs methodArgs : List TypeName) : Option α → Except FormatError (Option α)
  | none => pure none
  | some a => some <$> substitute typeArgs methodArgs a

/-- Substitution in a part that may be missing follows those of the part. -/
theorem option (h : Substitutes substitute placeholders) :
    Substitutes (optional substitute) fun a => a.elim [] placeholders where
  reports typeArgs methodArgs a := by
    cases a with
    | none => exact .ok none
    | some a => exact (h.reports typeArgs methodArgs a).map some
  composes := by
    intro typeArgs methodArgs typeArgs' methodArgs' outerType outerMethod a b htype hmethod hab
    cases a with
    | none =>
      cases hab
      exact ⟨none, rfl, rfl⟩
    | some a =>
      obtain ⟨b, hb, rfl⟩ := map_eq_ok.1 hab
      obtain ⟨c, hc, hc'⟩ := h.composes htype hmethod hb
      exact ⟨some c, map_eq_ok.2 ⟨c, hc, rfl⟩, map_eq_ok.2 ⟨c, hc', rfl⟩⟩
  closes := by
    intro typeArgs methodArgs a b htype hmethod hab
    cases a with
    | none =>
      cases hab
      rfl
    | some a =>
      obtain ⟨b, hb, rfl⟩ := map_eq_ok.1 hab
      exact h.closes htype hmethod hb
  keeps := by
    intro a ha typeArgs methodArgs
    cases a with
    | none => rfl
    | some a => exact map_eq_ok.2 ⟨a, h.keeps ha _ _, rfl⟩

/-- A record that is a tuple under another name. -/
theorem transport (h : Substitutes substitute placeholders) (e : γ ≃ α)
    {replace : List TypeName → List TypeName → γ → Except FormatError γ}
    (hreplace : ∀ typeArgs methodArgs c,
      replace typeArgs methodArgs c = e.symm <$> substitute typeArgs methodArgs (e c)) :
    Substitutes replace fun c => placeholders (e c) := by
  have hok {typeArgs methodArgs : List TypeName} {c d : γ} :
      replace typeArgs methodArgs c = .ok d ↔
        substitute typeArgs methodArgs (e c) = .ok (e d) := by
    rw [hreplace, map_eq_ok]
    constructor
    · rintro ⟨a, ha, rfl⟩
      rw [ha, e.apply_symm_apply]
    · exact fun hd => ⟨e d, hd, e.symm_apply_apply d⟩
  refine ⟨?_, ?_, ?_, ?_⟩
  · intro typeArgs methodArgs c
    rw [hreplace]
    exact (h.reports typeArgs methodArgs (e c)).map e.symm
  · intro typeArgs methodArgs typeArgs' methodArgs' outerType outerMethod c d htype hmethod hcd
    obtain ⟨a, ha, ha'⟩ := h.composes htype hmethod (hok.1 hcd)
    obtain ⟨d', rfl⟩ := e.surjective a
    exact ⟨d', hok.2 ha, hok.2 ha'⟩
  · exact fun htype hmethod hcd => h.closes htype hmethod (hok.1 hcd)
  · exact fun hc typeArgs methodArgs => hok.2 (h.keeps hc typeArgs methodArgs)

end Substitutes

/-! ## Signatures and field references -/

/-- The tokens of a list between angle brackets, and none for an empty list. -/
def TypeName.argsTokens : List TypeName → List Token
  | [] => []
  | args => .words "<" :: (listTokens args ++ [.words ">"])

/-- The tokens of arguments make their text. -/
theorem TypeName.join_argsTokens (args : List TypeName) :
    Token.join (argsTokens args) = renderArgs args := by
  cases args with
  | nil => rfl
  | cons t rest =>
    simp [argsTokens, renderArgs, Token.join, Token.text, join_listTokens, String.append_assoc]

/-- The placeholders of arguments are met one argument after another. -/
theorem TypeName.placeholders_argsTokens (args : List TypeName) :
    Token.placeholders (argsTokens args) = allPlaceholders args := by
  cases args with
  | nil => rfl
  | cons t rest => simp [argsTokens, placeholders_listTokens]

namespace Signature

/-- The tokens of the text of a signature. -/
def tokens (s : Signature) : List Token :=
  s.declaringType.tokens ++ [.words "::", .words s.name] ++ TypeName.argsTokens s.genericArgs ++
    [.words "("] ++ TypeName.listTokens s.parameters ++ [.words ")"]

/-- The tokens of a signature make its text. -/
theorem join_tokens (s : Signature) : Token.join s.tokens = s.render := by
  simp [tokens, render, Token.join, Token.text, TypeName.join_tokens, TypeName.join_argsTokens,
    TypeName.join_listTokens, String.append_assoc]

/-- Its placeholders are met in the declaring type, the generic arguments and the parameters. -/
theorem placeholders_tokens (s : Signature) :
    Token.placeholders s.tokens =
      s.declaringType.placeholders ++ (TypeName.allPlaceholders s.genericArgs ++
        (TypeName.allPlaceholders s.parameters ++ [])) := by
  simp [tokens, TypeName.placeholders_argsTokens, TypeName.placeholders_listTokens,
    TypeName.placeholders]

/-- A signature as the tuple of its fields. -/
def fields : Signature ≃ TypeName × List TypeName × List TypeName × String where
  toFun s := (s.declaringType, s.genericArgs, s.parameters, s.name)
  invFun x := ⟨x.1, x.2.2.2, x.2.1, x.2.2.1⟩
  left_inv _ := rfl
  right_inv _ := rfl

/-- A signature is replaced one field after the other. -/
theorem substitute_eq_map (typeArgs methodArgs : List TypeName) (s : Signature) :
    s.substitute typeArgs methodArgs = fields.symm <$>
      Substitutes.both TypeName.substitute (Substitutes.both TypeName.substituteAll
        (Substitutes.both TypeName.substituteAll fun _ _ name => .ok name))
        typeArgs methodArgs (fields s) := by
  simp only [substitute, Substitutes.both, fields, Equiv.coe_fn_mk]
  cases s.declaringType.substitute typeArgs methodArgs with
  | error e => rfl
  | ok declaringType =>
    cases TypeName.substituteAll typeArgs methodArgs s.genericArgs with
    | error e => rfl
    | ok genericArgs =>
      cases TypeName.substituteAll typeArgs methodArgs s.parameters with
      | error e => rfl
      | ok parameters => rfl

/-- Substitution in a signature follows its placeholders. -/
theorem substitutes : Substitutes substitute fun s => Token.placeholders s.tokens := by
  have htuple := TypeName.substitutes.pair
    (TypeName.substitutesAll.pair (TypeName.substitutesAll.pair (Substitutes.const String)))
  simp only [placeholders_tokens]
  exact htuple.transport fields substitute_eq_map

end Signature

namespace FieldRef

/-- The tokens of the text of a field reference. -/
def tokens (f : FieldRef) : List Token :=
  f.fieldType.elim [] (fun t => t.tokens ++ [.words " "]) ++
    f.declaringType.tokens ++ [.words "::", .words f.name]

/-- The tokens of a field make its text. -/
theorem join_tokens (f : FieldRef) : Token.join f.tokens = f.render := by
  obtain ⟨fieldType, declaringType, name⟩ := f
  cases fieldType with
  | none =>
    simp [tokens, render, renderLeading, key, Token.join, Token.text, TypeName.join_tokens,
      String.append_assoc]
  | some t =>
    simp [tokens, render, renderLeading, key, Token.join, Token.text, TypeName.join_tokens,
      String.append_assoc]

/-- Its placeholders are met in its type, if that is given, and in the declaring type. -/
theorem placeholders_tokens (f : FieldRef) :
    Token.placeholders f.tokens = f.fieldType.elim [] TypeName.placeholders ++
      (f.declaringType.placeholders ++ []) := by
  obtain ⟨fieldType, declaringType, name⟩ := f
  cases fieldType with
  | none => simp [tokens, TypeName.placeholders]
  | some t => simp [tokens, TypeName.placeholders]

/-- A field reference as the tuple of its fields. -/
def fields : FieldRef ≃ Option TypeName × TypeName × String where
  toFun f := (f.fieldType, f.declaringType, f.name)
  invFun x := ⟨x.1, x.2.1, x.2.2⟩
  left_inv _ := rfl
  right_inv _ := rfl

/-- A field reference is replaced one field after the other. -/
theorem substitute_eq_map (typeArgs methodArgs : List TypeName) (f : FieldRef) :
    f.substitute typeArgs methodArgs = fields.symm <$>
      Substitutes.both (Substitutes.optional TypeName.substitute)
        (Substitutes.both TypeName.substitute fun _ _ name => .ok name)
        typeArgs methodArgs (fields f) := by
  obtain ⟨fieldType, declaringType, name⟩ := f
  simp only [substitute, Substitutes.both, fields, Equiv.coe_fn_mk]
  cases fieldType with
  | none =>
    simp only [Substitutes.optional]
    cases declaringType.substitute typeArgs methodArgs with
    | error e => rfl
    | ok declaringType' => rfl
  | some t =>
    simp only [Substitutes.optional]
    cases t.substitute typeArgs methodArgs with
    | error e => rfl
    | ok t' =>
      cases declaringType.substitute typeArgs methodArgs with
      | error e => rfl
      | ok declaringType' => rfl

/-- Substitution in a field follows its placeholders. -/
theorem substitutes : Substitutes substitute fun f => Token.placeholders f.tokens := by
  have htuple := TypeName.substitutes.option.pair
    (TypeName.substitutes.pair (Substitutes.const String))
  simp only [placeholders_tokens]
  exact htuple.transport fields substitute_eq_map

end FieldRef

/-! ## The laws -/

/-- A signature is closed exactly if no placeholder is met in it. -/
theorem Signature.hasPlaceholders_eq_false_iff {s : Signature} :
    s.hasPlaceholders = false ↔ Token.placeholders s.tokens = [] := by
  simp only [hasPlaceholders, placeholders_tokens, Bool.or_eq_false_iff, List.append_eq_nil_iff,
    TypeName.hasPlaceholders_eq_false_iff, TypeName.anyPlaceholders_eq_false_iff_nil, and_assoc,
    and_true]

end Hotswap
