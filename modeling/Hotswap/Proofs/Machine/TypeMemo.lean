import Hotswap.Proofs.Machine.Fields
import Mathlib

/-!
# Types that are looked up again

A resolver remembers the types that it finds, under their texts. A lookup may leave something behind
although it fails: the arguments of a type are looked up one after another, and those that are found
stay remembered when a later one is not.

None of this can be noticed. Types are read from texts or made from such types by replacing
placeholders (`TypeName.Obtained`), and no two of them have one text. So a question about one of
them keeps what is remembered as the symbols say (`TypeQuery.sound_run`), and so does every sequence
of questions (`Scope.sound_afterQueries`). After any of them a type is found as it is found by a
resolver that remembers nothing.
-/

namespace Hotswap

/-! ## Types that there can be -/

/-- A type that is read from a text, or made from such types by replacing placeholders. -/
inductive TypeName.Obtained : TypeName → Prop where
  /-- The type is read. -/
  | parsed {text : String} {t : TypeName} (h : TypeName.parse text = .ok t) : t.Obtained
  /-- The placeholders of a type are replaced. -/
  | substituted {t u : TypeName} {typeArgs methodArgs : List TypeName} (ht : t.Obtained)
    (htype : ∀ arg ∈ typeArgs, arg.Obtained) (hmethod : ∀ arg ∈ methodArgs, arg.Obtained)
    (h : t.substitute typeArgs methodArgs = .ok u) : u.Obtained

/-- Such a type can be written. -/
theorem TypeName.Obtained.wellFormed {t : TypeName} (h : t.Obtained) : t.WellFormed := by
  induction h with
  | parsed h => exact wellFormed_of_parse h
  | substituted ht htype hmethod h iht ihtype ihmethod =>
    exact wellFormed_of_substitute (allWellFormed_iff.2 ihtype) (allWellFormed_iff.2 ihmethod) _
      iht h

/-- These are the types that can be read from some text. -/
theorem TypeName.obtained_iff_parsed {t : TypeName} : t.Obtained ↔ t.Parsed :=
  ⟨fun h => parsed_iff_wellFormed.2 h.wellFormed, fun ⟨_, h⟩ => .parsed h⟩

/-! ## Questions -/

/-- A question about a type. -/
inductive TypeQuery where
  /-- Looks the type up. -/
  | find (type : TypeName)
  /-- Asks what a variable of the type starts as. -/
  | start (type : TypeName)

namespace TypeQuery

/-- The type that a question is about. -/
def type : TypeQuery → TypeName
  | find type => type
  | start type => type

/-- The state after a question, whether it has been answered or not. -/
def run (scope : Scope) (s : State) : TypeQuery → State
  | find type => (Machine.resolve (scope.symbols.resolveType type) s).2
  | start type => (scope.defaultValue type s).2

end TypeQuery

/-- The state after several questions. -/
def Scope.afterQueries (scope : Scope) (queries : List TypeQuery) (s : State) : State :=
  queries.foldl (TypeQuery.run scope) s

variable {scope : Scope} {s : State}

/-- A lookup leaves behind what it remembers. -/
theorem Machine.memo_resolve {α : Type} (lookup : Resolve α) :
    (Machine.resolve lookup s).2.memo = (lookup s.memo).2 := by
  rw [Machine.resolve_apply]
  rcases lookup s.memo with ⟨e | a, memo⟩ <;> rfl

/-- What is remembered after a variable has been started: a named type is looked up, and nothing
else is. -/
theorem Scope.memo_defaultValue (type : TypeName) :
    (scope.defaultValue type s).2.memo = s.memo ∨
      (scope.defaultValue type s).2.memo = (scope.symbols.resolveType type s.memo).2 := by
  cases type with
  | named name args =>
    right
    rw [← Machine.memo_resolve]
    show ((Machine.resolve (scope.symbols.resolveType (.named name args)) >>= fun handle =>
      Machine.onMemory handle.defaultValue) s).2.memo = _
    rw [Machine.bind_apply]
    rcases Machine.resolve (scope.symbols.resolveType (.named name args)) s with
      ⟨stop | handle, t⟩ <;> rfl
  | suffixed element suffix => exact .inl rfl
  | typeParam index => exact .inl rfl
  | methodParam index => exact .inl rfl

/-- One question keeps what is remembered as the symbols say. -/
theorem TypeQuery.sound_run {q : TypeQuery} (hq : q.type.WellFormed)
    (hs : s.memo.Sound scope.symbols) : (q.run scope s).memo.Sound scope.symbols := by
  obtain ⟨-, hsound, -⟩ := scope.symbols.answers_resolveType q.type hq s.memo hs
  cases q with
  | find type =>
    rw [run, Machine.memo_resolve]
    exact hsound
  | start type =>
    rw [run]
    rcases scope.memo_defaultValue (s := s) type with hmemo | hmemo <;> rw [hmemo]
    · exact hs
    · exact hsound

/-- Any number of questions keep what is remembered as the symbols say. -/
theorem Scope.sound_afterQueries {queries : List TypeQuery}
    (hqueries : ∀ q ∈ queries, q.type.WellFormed) (hs : s.memo.Sound scope.symbols) :
    (scope.afterQueries queries s).memo.Sound scope.symbols := by
  induction queries generalizing s with
  | nil => exact hs
  | cons q rest ih =>
    exact ih (fun q' hq' => hqueries q' (.tail _ hq'))
      (TypeQuery.sound_run (hqueries q (.head _)) hs)

/-- Everything that is remembered has no placeholders and is filed under its own text. -/
theorem Memo.Sound.entry {symbols : SymbolTable} {memo : Memo} (h : memo.Sound symbols)
    {text : String} {handle : TypeHandle} (hentry : (text, handle) ∈ memo.types.entries) :
    handle.name.hasPlaceholders = false ∧ text = handle.name.render := by
  obtain ⟨-, htext, hhandle⟩ := h _ _ (Table.get?_eq_some_iff.2 hentry)
  exact ⟨(SymbolTable.name_of_handleOf hhandle).2, htext.symm⟩

/-- **What is remembered of types cannot be noticed.** After any questions about types that are read
or made from such types, each of these types is found as by a resolver that remembers nothing, with
the same registration or the same error. Everything that is remembered is a type without
placeholders, under its own text. -/
theorem Scope.resolveType_afterQueries (scope : Scope) {queries : List TypeQuery} {t : TypeName}
    (hs : s.memo = {}) (hqueries : ∀ q ∈ queries, q.type.Obtained) (ht : t.Obtained) :
    (scope.symbols.resolveType t (scope.afterQueries queries s).memo).1 =
        (scope.symbols.resolveType t {}).1 ∧
      ∀ entry ∈ (scope.afterQueries queries s).memo.types.entries,
        entry.2.name.hasPlaceholders = false ∧ entry.1 = entry.2.name.render := by
  have hempty : ({} : Memo).Sound scope.symbols := Memo.sound_empty scope.symbols
  have hsound : (scope.afterQueries queries s).memo.Sound scope.symbols := by
    refine scope.sound_afterQueries (fun q hq => (hqueries q hq).wellFormed) ?_
    rwa [hs]
  refine ⟨?_, fun entry hentry => hsound.entry hentry⟩
  have hanswers := scope.symbols.answers_resolveType t ht.wellFormed
  exact (hanswers _ hsound).1.trans (hanswers _ hempty).1.symm

/-- A host with generic types. -/
def genericHost : SymbolTable where
  modules := [{
    name := "Game"
    types := .ofList [("Game.Box`1", { name := "Game.Box`1", kind := .classType }),
      ("Game.Pair`2", { name := "Game.Pair`2", kind := .classType }),
      ("System.Int32", { name := "System.Int32", kind := .valueType
                         initial := some (pure (.int32 0)) }),
      ("System.String", { name := "System.String", kind := .classType })] }]

/-- What code that works with that host works with. -/
def genericScope : Scope := ⟨genericHost, ∅⟩

/-- A box of an item. -/
def boxWith (item : TypeName) : TypeName := .named "Game.Box`1" [item]

/-- A pair of a number and of something that the host does not have. -/
def brokenPair : TypeName :=
  .named "Game.Pair`2" [.plain "System.Int32", .plain "Game.Missing"]

/-- The pair can be read from its text. -/
theorem obtained_brokenPair : brokenPair.Obtained := by
  have hparse : TypeName.parse "Game.Pair`2<System.Int32,Game.Missing>" = .ok brokenPair := by
    decide +kernel
  exact .parsed hparse

/-- A box of such a type is another one: it is made from the box of a placeholder. -/
theorem obtained_boxWith {item : TypeName} (h : item.Obtained) : (boxWith item).Obtained := by
  have hparse : TypeName.parse "Game.Box`1<!0>" = .ok (boxWith (.typeParam 0)) := by decide +kernel
  have hitem : ∀ arg ∈ [item], arg.Obtained := by
    rintro arg (_ | ⟨_, ⟨⟩⟩)
    exact h
  have hclose : (boxWith (.typeParam 0)).substitute [item] [] = .ok (boxWith item) := rfl
  exact .substituted (.parsed hparse) hitem (List.forall_mem_nil _) hclose

/-- A pair is not found, but its number stays remembered. A box of numbers that is looked up then
is found as by a resolver that remembers nothing, and the pair is not found for the same reason. -/
theorem resolveType_afterQueries_brokenPair :
    let after := genericScope.afterQueries [.start brokenPair,
      .find (boxWith (.plain "System.Int32"))] {}
    after.memo.types.keys = ["Game.Box`1<System.Int32>", "System.Int32"] ∧
      (genericHost.resolveType (boxWith (.plain "System.Int32")) after.memo).1 =
        (genericHost.resolveType (boxWith (.plain "System.Int32")) {}).1 ∧
      (genericHost.resolveType (boxWith (.plain "System.Int32")) {}).1.map (·.name) =
        .ok (boxWith (.plain "System.Int32")) ∧
      (genericHost.resolveType brokenPair after.memo).1.map (·.name) =
        .error (.resolution "Game.Missing") := by
  have hnumber : (TypeName.plain "System.Int32").Obtained := by
    have hparse : TypeName.parse "System.Int32" = .ok (.plain "System.Int32") := by decide +kernel
    exact .parsed hparse
  have hqueries : ∀ q ∈ [TypeQuery.start brokenPair, .find (boxWith (.plain "System.Int32"))],
      q.type.Obtained := by
    rintro q (_ | ⟨_, _ | ⟨_, ⟨⟩⟩⟩)
    · exact obtained_brokenPair
    · exact obtained_boxWith hnumber
  have hfresh : ({} : State).memo = {} := rfl
  have hbox := genericScope.resolveType_afterQueries hfresh hqueries (obtained_boxWith hnumber)
  have hpair := genericScope.resolveType_afterQueries hfresh hqueries obtained_brokenPair
  refine ⟨by decide +kernel, hbox.1, by decide +kernel, ?_⟩
  show Except.map _ (genericScope.symbols.resolveType brokenPair _).1 = _
  rw [hpair.1]
  decide +kernel

end Hotswap
