import Hotswap.Engine
import Hotswap.Proofs.Machine.Delegates

/-!
# Sessions of a host

A host starts an engine with a catalogue, puts other catalogues in force and calls methods, in any
order (`Engine.Session`). If its symbols are those of the core library and of modules that neither
see the addresses of delegates nor leave references dangling, the state of the engine is proper all
the time (`Engine.Session.proper`), and so is every frame that an invocation comes to.

So wherever an invocation has come to, a method can be called through a new delegate as well as
directly, with any values of the frame (`Engine.Session.call_through`). Nothing is asked of the
state or of the values there.
-/

namespace Hotswap

/-- A module that neither sees the addresses of delegates nor leaves references dangling: the core
library, or another one of which this is known. -/
def Module.Careful (m : Module) : Prop := CoreLibrary.module = .ok m ∨ m.Uniform ∧ m.Live

/-- Such modules do not see the addresses of delegates. -/
theorem Module.Careful.uniform {m : Module} (h : m.Careful) : m.Uniform :=
  h.elim CoreLibrary.uniform_of_module And.left

/-- They leave no reference dangling. -/
theorem Module.Careful.live {m : Module} (h : m.Careful) : m.Live :=
  h.elim CoreLibrary.live_of_module And.right

/-- The locals of the descriptors of a catalogue have types that can be read. -/
def Catalogue.LocalsReadable (c : Catalogue) : Prop :=
  ∀ keys d, c.find? keys = some d → ∀ t ∈ d.body.locals, t.WellFormed

/-- A value is in a frame: an argument, a local or an operand. -/
def Frame.Has (f : Frame) (v : Value) : Prop := v ∈ f.args ∨ v ∈ f.locals ∨ v ∈ f.stack

/-- The values in a proper frame may be used in its state. -/
theorem Frame.ProperIn.of_has {f : Frame} {s : State} (h : f.ProperIn s) {v : Value}
    (hv : f.Has v) : v.ProperIn s := by
  rcases hv with hv | hv | hv
  · exact ⟨h.live.args v hv, h.readable.args v hv⟩
  · exact ⟨h.live.locals v hv, h.readable.locals v hv⟩
  · exact ⟨h.live.stack v hv, h.readable.stack v hv⟩

namespace Engine

/-- What a host comes to with an engine. An invocation is one of a signature that can be read, with
values that may be used in the state, while the locals of the descriptors in force can be read. -/
inductive Session : Engine → Prop
  /-- An engine starts with a catalogue. -/
  | start (c : Catalogue) (symbols : SymbolTable) : Session (.start c symbols)
  /-- Another catalogue is put in force. -/
  | reload {e : Engine} (h : Session e) (c : Catalogue) : Session (e.reload c)
  /-- A method is called. -/
  | invoke {e : Engine} (h : Session e) (hlocals : e.catalogue.LocalsReadable)
      {signature : Signature} (hsignature : signature.Over TypeName.WellFormed)
      {receiver : Option Value} (hreceiver : ∀ v ∈ receiver, v.ProperIn e.state)
      {args : List Value} (hargs : ∀ v ∈ args, v.ProperIn e.state) (fuel : Nat) :
      Session (e.invoke fuel signature receiver args).2

variable {e : Engine} (hmodules : ∀ m ∈ e.symbols.modules, m.Careful)

include hmodules

/-- A host of such modules leaves no reference dangling. -/
theorem live_symbols : e.symbols.Live :=
  SymbolTable.live_of_modules fun m hm => (hmodules m hm).live

/-- A host of such modules does not see the addresses of delegates. -/
theorem uniform_scope (hlocals : e.catalogue.LocalsReadable) : e.scope.Uniform :=
  ⟨SymbolTable.uniform_of_modules fun m hm => (hmodules m hm).uniform, hlocals⟩

/-- **The state of an engine is proper all the time**, whatever is put in force and called. -/
theorem Session.proper (h : Session e) : e.state.Proper e.symbols := by
  induction h with
  | start c symbols => exact State.proper_empty symbols c
  | reload _ c ih =>
    have hs := ih hmodules
    exact ⟨⟨hs.live.memory, hs.live.statics⟩, hs.memory, hs.statics, hs.sound⟩
  | @invoke e _ hlocals signature hsignature receiver hreceiver args hargs fuel ih =>
    show (Hotswap.invoke e.scope fuel signature receiver args e.state).2.Proper e.symbols
    exact (State.proper_invoke (uniform_scope (e := e) hmodules hlocals)
      (live_symbols (e := e) hmodules) fuel (ih hmodules) hsignature hreceiver hargs).1

/-- **The frames that an invocation comes to are proper**, each in the state that it is in. -/
theorem Session.proper_of_reaches (h : Session e) (hlocals : e.catalogue.LocalsReadable)
    {signature : Signature} (hsignature : signature.Over TypeName.WellFormed) {entry : Call}
    (hentry : e.scope.method (.ofSignature signature none) e.state =
      (.ok entry.method, entry.state))
    (hreceiver : ∀ v ∈ entry.receiver, v.ProperIn e.state)
    (hargs : ∀ v ∈ entry.args, v.ProperIn e.state) {fuel : Nat} {f : Frame} {s : State}
    (hreaches : entry.Reaches e.scope fuel f s) : s.Proper e.symbols ∧ f.ProperIn s := by
  have huniform := uniform_scope hmodules hlocals
  have hlive := live_symbols hmodules
  obtain ⟨hproper, hcount, hreadable⟩ := State.proper_method huniform hlive (h.proper hmodules)
    (b := .ofSignature signature none) ⟨hsignature, hsignature.context_wellFormed⟩
  rw [hentry] at hproper hcount hreadable
  have hkept : ∀ v : Value, v.ProperIn e.state → v.ProperIn entry.state :=
    fun v hv => ⟨hv.1.mono hcount, hv.2⟩
  exact Call.proper_of_reaches huniform hlive hproper (hreadable _ rfl)
    (fun v hv => hkept v (hreceiver v hv)) (fun v hv => hkept v (hargs v hv)) hreaches

/-- **Wherever an invocation has come to, a call through a new delegate is a direct call.** The
receiver and the arguments are values in the frame. The delegate is made, and the two ways of
calling have corresponding outcomes. -/
theorem Session.call_through (h : Session e) (hlocals : e.catalogue.LocalsReadable)
    {signature : Signature} (hsignature : signature.Over TypeName.WellFormed) {entry : Call}
    (hentry : e.scope.method (.ofSignature signature none) e.state =
      (.ok entry.method, entry.state))
    (hreceiver : ∀ v ∈ entry.receiver, v.ProperIn e.state)
    (hargs : ∀ v ∈ entry.args, v.ProperIn e.state) {fuel : Nat} {f : Frame} {s : State}
    (hreaches : entry.Reaches e.scope fuel f s) {c : CallTexts} {b : BoundMethod} {m : Method}
    {type : TypeName} (hc : c.Fit e.scope f.context b m type) (hm : (e.scope.method b s).1 = .ok m)
    {receiver : Option Value} (hr : ∀ v ∈ receiver, f.Has v)
    (hneeded : receiver.isSome = !m.isStatic) {args : List Value} (ha : ∀ v ∈ args, f.Has v)
    (hcount : args.length = m.paramCount) :
    (∃ memo, c.makeDelegate e.scope (call e.scope fuel) receiver f s =
      (.ok ((), { f with pendingTarget := false }.pushed
        (.delegate s.memory.heap.delegates.size)), { s.withDelegate ⟨m, receiver⟩ with memo })) ∧
    Shifted e.symbols s.memory.heap.delegates.size
      (fun r r' => ∃ v v', Value.Shifts s.memory.heap.delegates.size v v' ∧
        r.2 = f.returned m.returnsVoid v ∧
        r'.2 = { f with pendingTarget := false }.returned m.returnsVoid v')
      (c.callDirectly e.scope (call e.scope fuel) receiver args f s)
      (c.callThrough e.scope (call e.scope fuel) receiver args f s) := by
  obtain ⟨hs, hf⟩ :=
    h.proper_of_reaches hmodules hlocals hsignature hentry hreceiver hargs hreaches
  have hcx := hf.readable.context
  have huniform := uniform_scope hmodules hlocals
  exact ⟨CallTexts.exists_makeDelegate hs hcx hc hm hneeded _,
    CallTexts.shifted_calls huniform hs hcx hc hm hneeded hcount
      (fun v hv => hf.of_has (hr v hv)) (fun v hv => hf.of_has (ha v hv)) fuel⟩

end Engine

end Hotswap
