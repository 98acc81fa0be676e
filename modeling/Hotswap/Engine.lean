import Hotswap.Machine.Run

/-!
# Engines

An engine is what the host holds: its symbols and the state of the machine. Each invocation keeps
the catalogue that was in force when it began.

`Engine.invoke` calls a method by its closed signature, whether it is patched or not.
`Engine.redirect` is for a `CallSite`, a method of the host that asks first whether a descriptor is
in force for it: the descriptor is run, and there is no falling back to code of the host.
-/

namespace Hotswap

/-- The symbols of a host and the state of its machine. -/
structure Engine where
  /-- The symbols. -/
  symbols : SymbolTable
  /-- The state. -/
  state : State := {}

namespace Engine

/-- An engine that starts with a catalogue. -/
def start (c : Catalogue) (symbols : SymbolTable) : Engine := ⟨symbols, { catalogue := c }⟩

/-- The catalogue in force. -/
def catalogue (e : Engine) : Catalogue := e.state.catalogue

/-- Puts a catalogue in force. -/
def reload (e : Engine) (c : Catalogue) : Engine :=
  { e with state := { e.state with catalogue := c } }

/-- What an invocation that begins now works with. -/
def scope (e : Engine) : Scope := ⟨e.symbols, e.catalogue⟩

/-- Runs a computation of the machine. -/
def run {α : Type} (e : Engine) (m : Machine α) : Except Stop α × Engine :=
  let (r, state) := m e.state
  (r, { e with state })

/-- Calls a method by its closed signature. -/
def invoke (e : Engine) (fuel : Nat) (s : Signature) (receiver : Option Value)
    (args : List Value) : Except Stop Value × Engine :=
  e.run (Hotswap.invoke e.scope fuel s receiver args)

end Engine

/-! ## Call sites -/

/-- A method of the host that can be diverted. -/
structure CallSite where
  /-- The closed signature. -/
  signature : Signature
  /-- The parameters of the open definition, where they mention generic parameters. -/
  definitionParams : Option (List TypeName) := none
  deriving DecidableEq, Repr

/-- The bound method of a call site. -/
def CallSite.bound (site : CallSite) : BoundMethod :=
  .ofSignature site.signature site.definitionParams

namespace Engine

/-- The descriptor that is in force for a call site. -/
def descriptor? (e : Engine) (site : CallSite) : Option Descriptor :=
  e.catalogue.find? site.bound.keys

/-- Whether a descriptor is in force for a call site. -/
def isPatched (e : Engine) (site : CallSite) : Bool :=
  site.bound.keys.any e.catalogue.contains

/-- Runs the descriptor that is in force for a call site, and gives its result as the host sees it
under a type. -/
def redirect (e : Engine) (fuel : Nat) (site : CallSite) (receiver : Option Value)
    (args : List Value) (t : HostType) : Except Stop Value × Engine :=
  e.run <| match e.descriptor? site with
    | none => Machine.fail (.missingDescriptor site.signature.render)
    | some d => do
      let v ← execute e.scope (call e.scope fuel) fuel d site.bound.context (slots d receiver args)
      Machine.ofExcept (t.view v)

end Engine

end Hotswap
