import Hotswap.Proofs.Machine.Contract
import Hotswap.Proofs.Machine.Operators

/-!
# Ordinary errors

An error is ordinary unless it reports a malformed descriptor. Only a frame reports one, of the
descriptor that it runs. This file says so of everything below frames: operators and conversions,
comparisons, lookups of types, methods and fields, default values, and the heap fail with ordinary
errors alone.

The code of the host is outside the machine, so what its accessors of fields fail with is a
condition (`SymbolTable.OrdinaryAccessors`) and not a theorem.
-/

namespace Hotswap

variable {α β : Type}

/-- Whether an error reports a malformed descriptor. -/
def Error.isMalformed : Error → Bool
  | .malformedDescriptor .. => true
  | _ => false

/-- An error that does not report a malformed descriptor. -/
def Error.Ordinary (e : Error) : Prop := e.isMalformed = false

/-- A result as `Q` says, or an ordinary error. -/
def Gives (Q : α → Prop) : Except Error α → Prop
  | .ok a => Q a
  | .error e => e.Ordinary

/-- Any result, or an ordinary error. -/
abbrev Ordinary (r : Except Error α) : Prop := Gives (fun _ => True) r

/-! ## Results -/

/-- A result that is changed afterwards fails as before. -/
theorem Ordinary.map {r : Except Error α} (f : α → β) (h : Ordinary r) : Ordinary (r.map f) := by
  cases r with
  | ok => trivial
  | error => exact h

/-- Two steps fail ordinarily if each of them does. -/
theorem Ordinary.bind {r : Except Error α} {k : α → Except Error β} (h : Ordinary r)
    (hk : ∀ a, Ordinary (k a)) : Ordinary (r >>= k) := by
  cases r with
  | ok a => exact hk a
  | error => exact h

/-- A fault in a piece of the format is ordinary, whatever the piece is. -/
theorem ordinary_format (r : Except FormatError α) : Ordinary (r.mapError Error.format) := by
  cases r with
  | ok => trivial
  | error => rfl

/-- A cause that is given as an unresolved symbol is ordinary. -/
theorem ordinary_resolution {ε : Type} (r : Except ε α) (text : ε → String) :
    Ordinary (r.mapError fun e => Error.resolution (text e)) := by
  cases r with
  | ok => trivial
  | error => rfl

/-! ## Operators -/

/-- Arithmetic of 32 bits fails ordinarily. -/
theorem ordinary_intOp32 (op : BinaryOp) (x y : Int32) : Ordinary (intOp32 op x y) := by
  unfold intOp32 divide32
  repeat' split
  all_goals trivial

/-- So does that of 64 bits. -/
theorem ordinary_intOp64 (op : BinaryOp) (x y : Int64) : Ordinary (intOp64 op x y) := by
  unfold intOp64 divide64
  repeat' split
  all_goals trivial

/-- So does arithmetic of values. -/
theorem ordinary_arith (op : BinaryOp) (a b : Value) : Ordinary (arith op a b) := by
  unfold arith
  split
  · rfl
  · exact (ordinary_intOp32 ..).map _
  · exact (ordinary_intOp64 ..).map _
  · split
    · trivial
    · rfl
  · split
    · trivial
    · rfl

/-- So does addition, with strings included. -/
theorem ordinary_add (a b : Value) : Ordinary (add a b) := by
  unfold add
  split
  · trivial
  · trivial
  · exact ordinary_arith ..

/-- So do bitwise operators. -/
theorem ordinary_bitwise (op : BinaryOp) (a b : Value) : Ordinary (bitwise op a b) := by
  unfold bitwise
  repeat' split
  all_goals first
    | exact (ordinary_intOp32 ..).map _
    | exact (ordinary_intOp64 ..).map _
    | trivial

/-- So does checked arithmetic. -/
theorem ordinary_checked (op : BinaryOp) (unsigned : Bool) (a b : Value) :
    Ordinary (checked op unsigned a b) := by
  unfold checked
  split
  · rfl
  · dsimp only
    repeat' split
    all_goals trivial
  · dsimp only
    repeat' split
    all_goals trivial
  · exact ordinary_arith ..

/-- So does unsigned division. -/
theorem ordinary_divideUnsigned (op : BinaryOp) (a b : Value) :
    Ordinary (divideUnsigned op a b) := by
  unfold divideUnsigned
  split
  · rfl
  · split
    · rfl
    · trivial
  · split
    · rfl
    · trivial
  · exact ordinary_arith ..

/-- So does negation. -/
theorem ordinary_negate (v : Value) : Ordinary (negate v) := by
  unfold negate
  split
  all_goals trivial

/-- So does the complement. -/
theorem ordinary_complement (v : Value) : Ordinary (complement v) := by
  unfold complement
  split
  all_goals trivial

/-- So do conversions. -/
theorem ordinary_convert (c : Conversion) (v : Value) : Ordinary (convert c v) := by
  unfold convert
  split
  all_goals trivial

/-- So do checked conversions. -/
theorem ordinary_convertChecked (c : Conversion) (unsigned : Bool) (v : Value) :
    Ordinary (convertChecked c unsigned v) := by
  unfold convertChecked
  refine Ordinary.bind ?_ fun n => ?_
  · unfold sourceInteger
    repeat' split
    all_goals trivial
  · split
    · trivial
    · rfl

/-- So does the test for finite numbers. -/
theorem ordinary_checkFinite (v : Value) : Ordinary (checkFinite v) := by
  unfold checkFinite
  repeat' split
  all_goals trivial

/-! ## Comparisons -/

/-- So does comparison. -/
theorem ordinary_compareValues (operator : String) (a b : Value) :
    Ordinary (compareValues operator a b) := by
  unfold compareValues
  repeat' split
  all_goals trivial

/-- So does any relation that is made of it. -/
theorem ordinary_related (r : Relation) (unordered : Bool) (a b : Value) :
    Ordinary (related r unordered a b) :=
  (ordinary_compareValues ..).map _

/-- So does the test for the same value. -/
theorem ordinary_same (a b : Value) : Ordinary (same a b) := by
  unfold same equal
  repeat' split
  all_goals first
    | exact (ordinary_compareValues ..).map _
    | trivial

/-- So does the test for different ones. -/
theorem ordinary_different (a b : Value) : Ordinary (different a b) := (ordinary_same a b).map _

/-- So does the unordered comparison. -/
theorem ordinary_greaterOrUnordered (a b : Value) : Ordinary (greaterOrUnordered a b) := by
  unfold greaterOrUnordered
  split
  · trivial
  · exact ordinary_related ..

/-- So does the test for what counts as false. -/
theorem ordinary_branchFalse (v : Value) : Ordinary (branchFalse v) := by
  unfold branchFalse
  split
  all_goals trivial

/-- A comparison of the opcode table fails ordinarily. -/
theorem IsComparison.ordinary {test : Value → Value → Except Error Bool} (h : IsComparison test)
    (a b : Value) : Ordinary (test a b) := by
  cases h with
  | same => exact ordinary_same a b
  | different => exact ordinary_different a b
  | related r unordered => exact ordinary_related r unordered a b
  | greaterOrUnordered => exact ordinary_greaterOrUnordered a b

/-- So does a binary operator of the table. -/
theorem IsBinary.ordinary {operation : Value → Value → Except Error Value} (h : IsBinary operation)
    (a b : Value) : Ordinary (operation a b) := by
  cases h with
  | add => exact ordinary_add a b
  | arith op => exact ordinary_arith op a b
  | bitwise op => exact ordinary_bitwise op a b
  | checked op unsigned => exact ordinary_checked op unsigned a b
  | divideUnsigned op => exact ordinary_divideUnsigned op a b

/-- So does a unary one. -/
theorem IsUnary.ordinary {operation : Value → Except Error Value} (h : IsUnary operation)
    (v : Value) : Ordinary (operation v) := by
  cases h with
  | negate => exact ordinary_negate v
  | complement => exact ordinary_complement v
  | convert c => exact ordinary_convert c v
  | convertChecked c unsigned => exact ordinary_convertChecked c unsigned v
  | checkFinite => exact ordinary_checkFinite v

/-- So does a test of a branch. -/
theorem IsBranchTest.ordinary {test : Value → Except Error Bool} (h : IsBranchTest test)
    (v : Value) : Ordinary (test v) := by
  cases h with
  | branchFalse => exact ordinary_branchFalse v
  | branchTrue => trivial

/-! ## Closing names -/

/-- Closing a type fails ordinarily. -/
theorem ordinary_close (cx : GenericContext) (t : TypeName) : Ordinary (cx.close t) :=
  ordinary_resolution _ _

/-- So does closing several. -/
theorem ordinary_closeAll (cx : GenericContext) (ts : List TypeName) :
    Ordinary (cx.closeAll ts) := by
  induction ts with
  | nil => trivial
  | cons t rest ih =>
    exact (ordinary_close cx t).bind fun _ => ih.bind fun _ => trivial

/-- So does binding a reference. -/
theorem ordinary_ofRef (m : MethodRef) (caller : GenericContext) :
    Ordinary (BoundMethod.ofRef m caller) := by
  unfold BoundMethod.ofRef
  -- Every error of the parts is ordinary, and putting the reference in front keeps it so.
  have hmap : ∀ r : Except Error BoundMethod, Ordinary r →
      Ordinary (r.mapError (BoundMethod.unboundIn m)) := by
    intro r hr
    cases r with
    | ok => trivial
    | error e => cases e <;> exact hr
  refine hmap _ ?_
  refine (ordinary_close ..).bind fun _ => (ordinary_closeAll ..).bind fun _ =>
    (ordinary_closeAll ..).bind fun _ => ?_
  split
  · trivial
  · refine Ordinary.bind ?_ fun _ => trivial
    rw [map_eq_pure_bind]
    exact (ordinary_close ..).bind fun _ => trivial

/-- So does a cast. -/
theorem ordinary_cast (symbols : SymbolTable) (v : Value) (target : TypeHandle) :
    Ordinary (symbols.cast v target) := by
  unfold SymbolTable.cast
  dsimp only
  repeat' split
  all_goals first
    | exact ordinary_convert ..
    | trivial

/-! ## Lookups -/

/-- A lookup with results as `Q` says that fails with ordinary errors alone. -/
def Resolve.Gives (Q : α → Prop) (lookup : Resolve α) : Prop :=
  ∀ memo, Hotswap.Gives Q (lookup memo).1

/-- A lookup that fails with ordinary errors alone. -/
abbrev Resolve.Ordinary (lookup : Resolve α) : Prop := Resolve.Gives (fun _ => True) lookup

namespace Resolve.Gives

variable {Q : α → Prop} {S : β → Prop}

/-- A lookup that gives what is there already fails in no way. -/
theorem pure {a : α} (h : Q a) : Resolve.Gives Q (pure a) := fun _ => h

/-- A lookup may fail with an ordinary error. -/
theorem throw {e : Error} (h : e.Ordinary) : Resolve.Gives Q (throw e : Resolve α) := fun _ => h

/-- Two lookups one after another fail ordinarily if each of them does. -/
theorem bind {x : Resolve α} {k : α → Resolve β} (hx : Resolve.Gives Q x)
    (hk : ∀ a, Q a → Resolve.Gives S (k a)) : Resolve.Gives S (x >>= k) := by
  intro memo
  have h := hx memo
  show Hotswap.Gives S ((ExceptT.bind x k) memo).1
  simp only [ExceptT.bind, ExceptT.mk, Bind.bind, StateT.bind]
  rcases hx : x memo with ⟨e | a, memo'⟩ <;> rw [hx] at h
  · exact h
  · exact hk a h memo'

/-- So does one whose result is not looked at. -/
theorem discard {x : Resolve α} (hx : Resolve.Ordinary x) : Resolve.Ordinary (discard x) := by
  show Resolve.Ordinary (x >>= fun _ => Pure.pure ())
  exact hx.bind fun _ _ => pure trivial

/-- A lookup that puts ordinary errors in place of its own is ordinary, whatever it does before. -/
theorem tryCatch {x : Resolve α} {handle : Error → Resolve α}
    (hh : ∀ e, Resolve.Ordinary (handle e)) : Resolve.Ordinary (tryCatch x handle) := by
  intro memo
  simp only [MonadExcept.tryCatch, tryCatchThe, MonadExceptOf.tryCatch, ExceptT.tryCatch,
    ExceptT.mk, Bind.bind, StateT.bind]
  rcases x memo with ⟨e | a, memo'⟩
  · exact hh e memo'
  · trivial

/-- So does a result that is there already. -/
theorem ofExcept {r : Except Error α} (h : Hotswap.Gives Q r) :
    Resolve.Gives Q (liftM r : Resolve α) := by
  intro memo
  cases r with
  | ok => exact h
  | error => exact h

end Resolve.Gives

/-- What is remembered is found, and what is searched for fails as the search does. -/
theorem ordinary_foundOrSearched {t : TypeName} {search : Resolve TypeHandle}
    (h : Resolve.Ordinary search) : Resolve.Ordinary (do
      match (← get).types.get? t.render with
      | some handle => return handle
      | none =>
        let handle ← search
        modify fun memo => { memo with types := memo.types.insert t.render handle }
        return handle : Resolve TypeHandle) := by
  have hget : Resolve.Ordinary (get : Resolve Memo) := fun _ => trivial
  refine hget.bind fun memo _ => ?_
  split
  · exact .pure trivial
  · refine h.bind fun handle _ => ?_
    have hmodify : ∀ g : Memo → Memo, Resolve.Ordinary (modify g : Resolve Unit) :=
      fun _ _ => trivial
    exact (hmodify _).bind fun _ _ => .pure trivial

/-- The same with the search of a whole type. -/
theorem ordinary_remembered {t : TypeName} {search : Resolve TypeHandle}
    (h : Resolve.Ordinary search) : Resolve.Ordinary (SymbolTable.remembered t search) := by
  have hthrow : ∀ text, Resolve.Ordinary (throw (.resolution text) : Resolve PUnit) :=
    fun _ _ => rfl
  unfold SymbolTable.remembered
  split
  · exact (hthrow _).bind fun _ _ => ordinary_foundOrSearched h
  · exact ordinary_foundOrSearched h

/-- A definition is looked up with ordinary errors only. -/
theorem ordinary_definitionOf (symbols : SymbolTable) (name : String) (args : List TypeName) :
    Ordinary (symbols.definitionOf name args) := by
  unfold SymbolTable.definitionOf
  dsimp only
  repeat' split
  all_goals trivial

mutual

/-- **A type is resolved with ordinary errors only**, whatever is remembered. -/
theorem ordinary_resolveType (symbols : SymbolTable) :
    (t : TypeName) → Resolve.Ordinary (symbols.resolveType t)
  | .named name args => by
    unfold SymbolTable.resolveType
    exact ordinary_remembered <| (Resolve.Gives.ofExcept (ordinary_definitionOf ..)).bind
      fun _ _ => (ordinary_resolveTypes symbols args).bind fun _ _ => .pure trivial
  | .suffixed element _ => by
    unfold SymbolTable.resolveType
    exact ordinary_remembered <|
      (Resolve.Gives.discard (ordinary_resolveType symbols element)).bind
        fun _ _ => .pure trivial
  | .typeParam _ | .methodParam _ => by
    unfold SymbolTable.resolveType
    exact ordinary_remembered (.throw rfl)

/-- So are several. -/
theorem ordinary_resolveTypes (symbols : SymbolTable) :
    (ts : List TypeName) → Resolve.Ordinary (symbols.resolveTypes ts)
  | [] => by
    unfold SymbolTable.resolveTypes
    exact .pure trivial
  | t :: rest => by
    unfold SymbolTable.resolveTypes
    exact (Resolve.Gives.discard (ordinary_resolveType symbols t)).bind
      fun _ _ => ordinary_resolveTypes symbols rest

end

/-- The accessor of a field that has been looked up is one of the symbol table. -/
theorem gives_resolveField (symbols : SymbolTable) (f : FieldRef) (caller : GenericContext) :
    Resolve.Gives (fun handle => ∀ a, handle.accessor = some a →
        ∃ key, symbols.findField? key = some a)
      (symbols.resolveField f caller) := by
  unfold SymbolTable.resolveField
  refine (Resolve.Gives.ofExcept (ordinary_resolution _ _)).bind fun closed _ => ?_
  have haccessor : ∀ a, symbols.accessor? closed = some a →
      ∃ key, symbols.findField? key = some a := by
    intro a ha
    rcases Option.or_eq_some_iff.1 ha with h | ⟨-, h⟩
    · exact ⟨_, h⟩
    · exact ⟨_, h⟩
  dsimp only
  split
  · refine Resolve.Gives.bind (Resolve.Gives.tryCatch fun _ => .throw rfl) fun _ _ => ?_
    exact .pure haccessor
  · exact .pure haccessor

/-! ## Computations of the machine -/

/-- A computation that fails with ordinary errors alone. -/
abbrev Machine.Ordinary (m : Machine α) : Prop := m.Meets Error.Ordinary fun _ => True

namespace Machine.Meets

variable {Q : α → Prop}

/-- A result that is there already meets its condition. -/
theorem ofExcept {r : Except Error α} (h : Gives Q r) :
    (Machine.ofExcept r).Meets Error.Ordinary Q := by
  cases r with
  | ok => exact .pure h
  | error => exact .fail h

/-- A lookup meets its condition on the machine. -/
theorem resolve {lookup : Resolve α} (h : Resolve.Gives Q lookup) :
    (Machine.resolve lookup).Meets Error.Ordinary Q :=
  Meets.get.bind fun s _ => (Meets.modify _).bind fun _ _ => ofExcept (h s.memo)

/-- So does an operation on memory. -/
theorem onMemory? {action : MemoryAction α} (h : ∀ memory, Gives Q (action memory).1) :
    (Machine.onMemory? action).Meets Error.Ordinary Q :=
  (Meets.onMemory h).bind fun _ hr => ofExcept hr

end Machine.Meets

/-- Making an object fails ordinarily. -/
theorem ordinary_newObject (type : TypeName) : (Machine.newObject type).Ordinary :=
  Machine.Meets.onMemory fun _ => trivial

/-- So does making a default. -/
theorem ordinary_defaultValue (scope : Scope) (t : TypeName) :
    (scope.defaultValue t).Ordinary := by
  unfold Scope.defaultValue
  split
  · exact (Machine.Meets.resolve (ordinary_resolveType scope.symbols _)).bind
      fun _ _ => .onMemory fun _ => trivial
  · exact .pure trivial

/-- So does a search for a method. -/
theorem ordinary_method? (scope : Scope) (b : BoundMethod) : (scope.method? b).Ordinary := by
  unfold Scope.method?
  split
  · exact .pure trivial
  · have hfound : Resolve.Ordinary (scope.symbols.hostMethod? b) := fun _ => trivial
    exact (Machine.Meets.resolve hfound).bind fun _ _ => .pure trivial

/-- So does choosing one. -/
theorem ordinary_method (scope : Scope) (b : BoundMethod) : (scope.method b).Ordinary := by
  unfold Scope.method
  refine (ordinary_method? scope b).bind fun found _ => ?_
  split
  · exact .pure trivial
  · exact .fail rfl

/-! ## What is outside the machine -/

/-- An action of the host on memory that fails with ordinary errors alone. -/
def MemoryAction.Ordinary (action : MemoryAction α) : Prop :=
  ∀ memory, Hotswap.Ordinary (action memory).1

/-- A field of the host that is read and written with ordinary errors alone. -/
structure Accessor.Ordinary (a : Accessor) : Prop where
  /-- Reading fails with ordinary errors alone. -/
  get : ∀ target, MemoryAction.Ordinary (a.get target)
  /-- Writing fails with ordinary errors alone. -/
  set : ∀ write, a.set? = some write → ∀ target v, MemoryAction.Ordinary (write target v)

/-- Every field of the host is read and written with ordinary errors alone. -/
def SymbolTable.OrdinaryAccessors (symbols : SymbolTable) : Prop :=
  ∀ key a, symbols.findField? key = some a → a.Ordinary

/-- Everything that is called is run with ordinary errors alone. -/
structure Callee.Ordinary (callee : Callee) : Prop where
  /-- Every method is. -/
  method : ∀ m receiver args, (callee m receiver args).Ordinary
  /-- Every delegate is. -/
  delegate : ∀ d args, (callee.delegate d args).Ordinary

end Hotswap
