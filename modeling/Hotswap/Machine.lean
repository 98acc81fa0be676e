import Hotswap.Symbols.Cast

/-!
# The machine

Everything that running code can change is in `State`: memory, the static fields that the machine
keeps, what has been looked up, and the catalogue in force. `Machine` is the monad of computations
on it. A computation that stops early leaves the state as it was at that point, and running out of
fuel is kept apart from the errors of a program.

A `Scope` is what one invocation works with from beginning to end: the symbols of the host and the
catalogue that was in force when the invocation began. Replacing the catalogue changes the state
and not the scope.
-/

namespace Hotswap

/-- What running code can change. -/
structure State where
  /-- The objects, arrays and delegates, and the cells of the host. -/
  memory : Memory := {}
  /-- The static fields that the machine keeps, by the text of the closed field. -/
  statics : Table String Value := ∅
  /-- What has been looked up. -/
  memo : Memo := {}
  /-- The catalogue in force. -/
  catalogue : Catalogue := ∅

/-- Why a computation stops before it has a result. -/
inductive Stop where
  /-- The program fails. -/
  | failed (e : Error)
  /-- There is no fuel left. -/
  | outOfFuel
  deriving DecidableEq, Repr

/-- A computation on the state. -/
abbrev Machine (α : Type) := ExceptT Stop (StateM State) α

/-- What an invocation works with from beginning to end. -/
structure Scope where
  /-- The symbols of the host. -/
  symbols : SymbolTable
  /-- The catalogue that was in force when the invocation began. -/
  catalogue : Catalogue

namespace Machine

variable {α : Type}

/-- Stops with an error. -/
def fail (e : Error) : Machine α := throw (.failed e)

/-- Gives a result or stops with an error. -/
def ofExcept : Except Error α → Machine α
  | .ok a => pure a
  | .error e => fail e

/-- An action on memory. -/
def onMemory (action : StateM Memory α) : Machine α := do
  let (a, memory) := action (← get).memory
  modify fun s => { s with memory }
  return a

/-- An action on memory that can fail. -/
def onMemory? (action : MemoryAction α) : Machine α := do
  ofExcept (← onMemory action)

/-- A lookup. -/
def resolve (lookup : Resolve α) : Machine α := do
  let (r, memo) := lookup (← get).memo
  modify fun s => { s with memo }
  ofExcept r

/-- Runs a computation and gives its error as a value. Running out of fuel is not an error. -/
def attempt (m : Machine α) : Machine (Except Error α) :=
  tryCatch (.ok <$> m) fun
    | .failed e => pure (.error e)
    | .outOfFuel => throw .outOfFuel

/-- Makes an object without fields. -/
def newObject (type : TypeName) : Machine Value := onMemory fun m => m.newObject type

end Machine

namespace Scope

/-- What a variable of a closed type starts as. Only named types have a default other than null. -/
def defaultValue (scope : Scope) : TypeName → Machine Value
  | .named name args => do
    let handle ← Machine.resolve (scope.symbols.resolveType (.named name args))
    Machine.onMemory handle.defaultValue
  | _ => pure .null

/-- Chooses the body of a bound method: a descriptor under its closed or its open text, else a
method of the host. -/
def method? (scope : Scope) (b : BoundMethod) : Machine (Option Method) :=
  match scope.catalogue.find? b.keys with
  | some d => return some ⟨b.signature, b.context, .patched d⟩
  | none => do
    let found ← Machine.resolve (scope.symbols.hostMethod? b)
    return found.map fun h => ⟨b.signature, b.context, .host h⟩

/-- Chooses the body of a bound method, which must have one. -/
def method (scope : Scope) (b : BoundMethod) : Machine Method := do
  match ← scope.method? b with
  | some m => return m
  | none => Machine.fail (.resolution b.signature.render)

end Scope

end Hotswap
