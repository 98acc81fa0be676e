import Hotswap.Catalogue
import Hotswap.HostValue

/-!
# Programs of the host

A host method is a program of the host. `Host α` is such a program, written out as the tree of what
it asks of the machine: to read and to write memory, to call a method by its closed signature, to
call a delegate, and to exchange the catalogue in force for another one. What a program does between
two requests is ordinary computation and needs no constructor.

These are not all the requests that an engine could answer. A program can neither begin an
invocation of its own, under the catalogue that is in force then, nor ask for the symbols of the
host and for what has been looked up. It sees a catalogue in force only when it takes it out of
force.

`bind_done` and `bind_assoc`, with the equation of `bind` at `done`, are the laws of a monad. A
request that fails gives the program the error as a value; `Host.invoke` and `Host.callback` pass it
on.

The accessors of fields and the default values of types ask for less and are plain functions of
memory.
-/

namespace Hotswap

/-- A program of the host that gives a result or an error. -/
inductive Host (α : Type) where
  /-- Gives a result. -/
  | done (a : α)
  /-- Fails. -/
  | fail (e : Error)
  /-- Goes on with what memory holds. -/
  | read (next : Memory → Host α)
  /-- Replaces what memory holds. -/
  | write (m : Memory) (next : Host α)
  /-- Calls a method by its closed signature. -/
  | call (s : Signature) (receiver : Option Value) (args : List Value)
      (next : Except Error Value → Host α)
  /-- Calls a delegate. -/
  | callDelegate (address : Nat) (args : List Value) (next : Except Error Value → Host α)
  /-- Puts a catalogue in force and goes on with the one that was in force. -/
  | reload (c : Catalogue) (next : Catalogue → Host α)

namespace Host

variable {α β : Type}

/-- Goes on with the result of a program. -/
def bind : Host α → (α → Host β) → Host β
  | .done a, f => f a
  | .fail e, _ => .fail e
  | .read next, f => .read fun m => (next m).bind f
  | .write m next, f => .write m (next.bind f)
  | .call s receiver args next, f => .call s receiver args fun r => (next r).bind f
  | .callDelegate address args next, f => .callDelegate address args fun r => (next r).bind f
  | .reload c next, f => .reload c fun previous => (next previous).bind f

instance : Monad Host where
  pure := .done
  bind := bind

/-- A program that gives its result as it is goes on unchanged. -/
theorem bind_done (p : Host α) : p.bind .done = p := by
  induction p with
  | done | fail => rfl
  | read next ih => exact congrArg Host.read (funext ih)
  | write m next ih => exact congrArg (Host.write m) ih
  | call s receiver args next ih => exact congrArg (Host.call s receiver args) (funext ih)
  | callDelegate address args next ih =>
    exact congrArg (Host.callDelegate address args) (funext ih)
  | reload c next ih => exact congrArg (Host.reload c) (funext ih)

/-- Going on twice is going on once with both. -/
theorem bind_assoc {γ : Type} (p : Host α) (f : α → Host β) (g : β → Host γ) :
    (p.bind f).bind g = p.bind fun a => (f a).bind g := by
  induction p with
  | done | fail => rfl
  | read next ih => exact congrArg Host.read (funext ih)
  | write m next ih => exact congrArg (Host.write m) ih
  | call s receiver args next ih => exact congrArg (Host.call s receiver args) (funext ih)
  | callDelegate address args next ih =>
    exact congrArg (Host.callDelegate address args) (funext ih)
  | reload c next ih => exact congrArg (Host.reload c) (funext ih)

/-- Gives a result or fails. -/
def ofExcept : Except Error α → Host α
  | .ok a => .done a
  | .error e => .fail e

instance : MonadLift (Except Error) Host where
  monadLift := ofExcept

/-- What memory holds. -/
def memory : Host Memory := .read .done

/-- Changes memory and gives a result. -/
def access (f : Memory → α × Memory) : Host α :=
  .read fun m => .write (f m).2 (.done (f m).1)

/-- Changes memory. -/
def update (f : Memory → Memory) : Host Unit := .read fun m => .write (f m) (.done ())

/-- Calls a method by its closed signature. -/
def invoke (s : Signature) (receiver : Option Value) (args : List Value) : Host Value :=
  .call s receiver args ofExcept

/-- Calls a delegate. -/
def callback (address : Nat) (args : List Value) : Host Value :=
  .callDelegate address args ofExcept

/-- Puts a catalogue in force and gives the one that was in force. -/
def exchangeCatalogue (c : Catalogue) : Host Catalogue := .reload c .done

/-- Puts a catalogue in force. -/
def replaceCatalogue (c : Catalogue) : Host Unit := discard (exchangeCatalogue c)

end Host

/-- What a host method is called with. -/
structure HostCall where
  /-- The closed signature. -/
  signature : Signature
  /-- The generic arguments. -/
  context : GenericContext
  /-- The receiver; null if there is none. -/
  receiver : Value
  /-- The arguments. -/
  args : List Value

namespace HostCall

/-- An argument. -/
def arg (c : HostCall) (index : Nat) : Except Error Value :=
  match c.args[index]? with
  | some v => .ok v
  | none => .error (.native (c.signature.render ++ ": missing argument " ++ toString index))

/-- An argument as the host sees it under a type. -/
def argAs (c : HostCall) (t : HostType) (index : Nat) : Except Error Value := do
  t.view (← c.arg index)

/-- The receiver as the host sees it under a type. -/
def receiverAs (c : HostCall) (t : HostType) : Except Error Value := t.view c.receiver

end HostCall

/-- The code of a host method. -/
abbrev HostCode := HostCall → Host Value

/-- An action of the host on memory that can fail. -/
abbrev MemoryAction (α : Type) := ExceptT Error (StateM Memory) α

end Hotswap
