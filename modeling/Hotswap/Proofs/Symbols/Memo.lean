import Hotswap.Symbols.Resolver
import Mathlib

/-!
# What lookups of host methods remember

A lookup of a host method reads two texts of a bound method, the open definition and the closed
signature, and its outcome is remembered under the closed one. Bound methods with one closed text
can have different definitions, so the outcome for one may be given to another.

* `get?_remember` says what one lookup adds to what is remembered, and `get?_memoAfter` what any
  number of lookups leave: at each text, the outcome of the first lookup that had it.
* `hostMethod?_memoAfter_eq_iff`: a lookup after others has the outcome that it has alone exactly if
  the first of them with its closed text has that outcome too. It is not so for every order of
  lookups (`hostMethod?_get_missed`).
-/

namespace Hotswap

/-- A lookup of a host method. -/
inductive MethodQuery where
  /-- Asks for the method, which need not be there. -/
  | find (b : BoundMethod)
  /-- Asks for the method and fails if it is not there. -/
  | require (b : BoundMethod)
  deriving DecidableEq

namespace MethodQuery

/-- The method that is looked up. -/
def method : MethodQuery → BoundMethod
  | .find b | .require b => b

/-- The text that the outcome is remembered under. -/
def text (q : MethodQuery) : String := q.method.signature.render

/-- What is remembered after a lookup. -/
def remember (symbols : SymbolTable) (memo : Memo) : MethodQuery → Memo
  | .find b => (symbols.hostMethod? b memo).2
  | .require b => (symbols.resolveMethod b memo).2

end MethodQuery

namespace SymbolTable

variable (symbols : SymbolTable)

/-- What is remembered after several lookups, the first of which remembers nothing yet. -/
def memoAfter (queries : List MethodQuery) : Memo :=
  queries.foldl (MethodQuery.remember symbols) {}

/-! ## One lookup -/

/-- What is remembered is given as it is, and anything else is searched for and remembered. -/
theorem hostMethod?_apply (b : BoundMethod) (memo : Memo) :
    symbols.hostMethod? b memo =
      match memo.methods.get? b.signature.render with
      | some outcome => (outcome, memo)
      | none => (symbols.searchMethod b, { memo with
          methods := memo.methods.insert b.signature.render (symbols.searchMethod b) }) := by
  unfold hostMethod?
  dsimp only [bind, StateT.bind, get, getThe, MonadStateOf.get, StateT.get, pure]
  cases memo.methods.get? b.signature.render <;> rfl

/-- A method is the one that is remembered under its text, or else the one that a search finds. -/
theorem fst_hostMethod? (b : BoundMethod) (memo : Memo) :
    (symbols.hostMethod? b memo).1 =
      (memo.methods.get? b.signature.render).getD (symbols.searchMethod b) := by
  rw [hostMethod?_apply]
  cases memo.methods.get? b.signature.render <;> rfl

/-- A method is resolved if one is found. -/
theorem resolveMethod_apply (b : BoundMethod) (memo : Memo) :
    symbols.resolveMethod b memo =
      (match (symbols.hostMethod? b memo).1 with
        | some m => pure m
        | none => throw (Error.resolution b.signature.render) : Resolve HostMethod)
        (symbols.hostMethod? b memo).2 := rfl

/-- A lookup that fails if the method is not there remembers the same. -/
theorem snd_resolveMethod (b : BoundMethod) (memo : Memo) :
    (symbols.resolveMethod b memo).2 = (symbols.hostMethod? b memo).2 := by
  rw [resolveMethod_apply]
  cases (symbols.hostMethod? b memo).1 <;> rfl

/-- A query is remembered as the search for its method is. -/
theorem remember_eq (memo : Memo) (q : MethodQuery) :
    q.remember symbols memo = (symbols.hostMethod? q.method memo).2 := by
  cases q with
  | find b => rfl
  | require b => exact symbols.snd_resolveMethod b memo

/-- **One lookup** adds its outcome at its own text, unless there is one already. -/
theorem get?_remember (memo : Memo) (q : MethodQuery) (text : String) :
    (q.remember symbols memo).methods.get? text =
      (memo.methods.get? text).or
        (if q.text = text then some (symbols.searchMethod q.method) else none) := by
  rw [remember_eq, hostMethod?_apply]
  by_cases htext : q.text = text
  · subst htext
    rw [if_pos rfl]
    cases hfound : memo.methods.get? q.method.signature.render with
    | none =>
      have hnone : memo.methods.get? q.text = none := hfound
      rw [hnone, Option.none_or]
      exact Table.get?_insert_self _ _ _
    | some outcome =>
      have hsome : memo.methods.get? q.text = some outcome := hfound
      rw [hsome, Option.some_or]
  · rw [if_neg htext, Option.or_none]
    cases memo.methods.get? q.method.signature.render with
    | none => exact Table.get?_insert_of_ne _ _ (Ne.symm htext)
    | some outcome => rfl

/-! ## Many lookups -/

/-- **Any number of lookups** leave at each text the outcome of the first one that had it. -/
theorem get?_memoAfter (queries : List MethodQuery) (text : String) :
    (symbols.memoAfter queries).methods.get? text =
      (queries.find? (·.text = text)).map fun q => symbols.searchMethod q.method := by
  -- Lookups that find something remembered add to that.
  have hfrom : ∀ memo : Memo,
      (queries.foldl (MethodQuery.remember symbols) memo).methods.get? text =
        (memo.methods.get? text).or
          ((queries.find? (·.text = text)).map fun q => symbols.searchMethod q.method) := by
    induction queries with
    | nil =>
      intro memo
      exact (Option.or_none).symm
    | cons q rest ih =>
      intro memo
      rw [List.foldl_cons, ih, get?_remember, Option.or_assoc]
      congr 1
      by_cases htext : q.text = text
      · simp [htext]
      · simp [htext]
  exact hfrom {}

/-- **A lookup after others has the outcome that it has alone** exactly if the first of them with
its closed text has that outcome. -/
theorem hostMethod?_memoAfter_eq_iff (queries : List MethodQuery) (b : BoundMethod) :
    (symbols.hostMethod? b (symbols.memoAfter queries)).1 = (symbols.hostMethod? b {}).1 ↔
      ∀ q, queries.find? (·.text = b.signature.render) = some q →
        symbols.searchMethod q.method = symbols.searchMethod b := by
  have halone : (symbols.hostMethod? b {}).1 = symbols.searchMethod b :=
    symbols.fst_hostMethod? b {}
  rw [halone, fst_hostMethod?, get?_memoAfter]
  cases hfirst : queries.find? (·.text = b.signature.render) with
  | none => simp
  | some q => simp

end SymbolTable

/-! ## An order of lookups that matters -/

/-- A host with one method, `Get` of the generic type `Box`, whose parameter is the type's own. -/
def boxHost : SymbolTable where
  modules := [{
    name := "Game"
    methods := .ofList [("Box`1<!0>::Get(!0)",
      ⟨⟨.named "Box`1" [.typeParam 0], "Get", [], [.typeParam 0]⟩, .typeParam 0, true,
        fun _ => .done .null⟩)] }]

/-- The closed signature of `Get` on boxes of integers. -/
def boxGet : Signature :=
  ⟨.named "Box`1" [.named "System.Int32" []], "Get", [], [.named "System.Int32" []]⟩

/-- `Get` on boxes of integers as an instruction binds it, with the parameter as it is declared. -/
def boundBoxGet : BoundMethod where
  signature := boxGet
  definition := ⟨.named "Box`1" [.typeParam 0], "Get", [], [.typeParam 0]⟩
  context := .ofSignature boxGet
  returnType := some (.named "System.Int32" [])

/-- The host has the method, but does not find it once it was looked up by its closed signature. -/
theorem hostMethod?_get_missed :
    BoundMethod.ofRef ⟨some (.typeParam 0), ⟨.named "Box`1" [.named "System.Int32" []], "Get", [],
      [.typeParam 0]⟩⟩ {} = .ok boundBoxGet ∧
    (boxHost.hostMethod? boundBoxGet {}).1.isSome = true ∧
    ¬(boxHost.hostMethod? boundBoxGet
        (boxHost.memoAfter [.find (.ofSignature boxGet none)])).1 =
      (boxHost.hostMethod? boundBoxGet {}).1 := by
  refine ⟨by decide +kernel, by decide +kernel, fun hsame => ?_⟩
  have hfirst := (boxHost.hostMethod?_memoAfter_eq_iff [.find (.ofSignature boxGet none)]
    boundBoxGet).1 hsame (.find (.ofSignature boxGet none)) (by decide +kernel)
  revert hfirst
  decide +kernel

end Hotswap
