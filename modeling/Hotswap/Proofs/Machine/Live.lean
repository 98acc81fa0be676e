import Hotswap.Proofs.Machine.Calls

/-!
# No reference dangles

A reference to a delegate dangles if there is no delegate at its address. Delegates are only made
and never removed, so a reference that does not dangle will not dangle later: the references of a
value are below the number of delegates (`Value.LiveBelow`), and that number grows.

* `State.Live` says of a state that no reference dangles in it. Before anything is run, none does.
* A host may not invent references and may not take delegates away (`SymbolTable.Live`). Of a
  program of the host this is said along its requests, with the memory that it finds at each
  (`Host.Live`).
* `Machine.Lives n Q` says of a computation that goes on from `n` delegates or more that it leaves
  no reference dangling, and that its result is as `Q` says of the number of delegates there are
  then. What is held while a computation runs has to be below `n`. The rules follow the monads,
  and each operation of a frame has its own (`FrameAction.Lives`).
-/

namespace Hotswap

open FrameAction

variable {α β : Type}

/-! ## Values and memory -/

/-- A value is not a reference to a delegate at an address or above it. -/
def Value.LiveBelow (k : Nat) : Value → Prop
  | .delegate address => address < k
  | _ => True

/-- A value that does not dangle does not when there are more delegates. -/
theorem Value.LiveBelow.mono {k k' : Nat} {v : Value} (h : v.LiveBelow k) (hk : k ≤ k') :
    v.LiveBelow k' := by
  cases v with
  | delegate address => exact Nat.lt_of_lt_of_le h hk
  | _ => trivial

/-- A plain value is no reference to a delegate, so it does not dangle. -/
theorem Value.IsPlain.liveBelow {v : Value} (h : v.IsPlain) (k : Nat) : v.LiveBelow k := by
  cases v <;> trivial

/-- An answer without a reference at an address or above it, unless it is an error. -/
def AnswerLive (k : Nat) (r : Except Error Value) : Prop := ∀ v, r = .ok v → v.LiveBelow k

/-- A plain answer does not dangle. -/
theorem AnswerPlain.live {r : Except Error Value} (h : AnswerPlain r) (k : Nat) : AnswerLive k r :=
  fun v hv => (h v hv).liveBelow k

/-- An answer that is plain or one given value does not dangle if that value does not. -/
theorem AnswerFrom.live {v : Value} {r : Except Error Value} (h : AnswerFrom v r) {k : Nat}
    (hv : v.LiveBelow k) : AnswerLive k r := by
  intro w hw
  rcases h w hw with hplain | rfl
  · exact hplain.liveBelow k
  · exact hv

/-- What holds of all entries of a table may be weakened. -/
theorem Table.Holds.mono {κ : Type} [Ord κ] {Q R : α → Prop} {t : Table κ α} (h : t.Holds Q)
    (hQ : ∀ a, Q a → R a) : t.Holds R :=
  fun e he => hQ e.2 (h e he)

/-- What holds of all values of a heap may be weakened. -/
theorem Heap.Holds.mono {Q R : Value → Prop} {h : Heap} (hh : h.Holds Q) (hQ : ∀ v, Q v → R v) :
    h.Holds R :=
  ⟨fun i hi => (hh.objects i hi).mono hQ, fun items hi v hv => hQ v (hh.arrays items hi v hv),
    fun d hd v hv => hQ v (hh.receivers d hd v hv)⟩

/-- The number of delegates there are. -/
def Memory.delegateCount (m : Memory) : Nat := m.heap.delegates.size

/-- No reference dangles in memory. -/
structure Memory.Live (m : Memory) : Prop where
  /-- None does in the heap. -/
  heap : m.heap.Holds (Value.LiveBelow m.delegateCount)
  /-- None does in the cells of the host. -/
  cells : m.cells.Holds (Value.LiveBelow m.delegateCount)

/-- No reference dangles in a state. -/
structure State.Live (s : State) : Prop where
  /-- None does in memory. -/
  memory : s.memory.Live
  /-- None does in the static fields. -/
  statics : s.statics.Holds (Value.LiveBelow s.memory.delegateCount)

/-- Before anything is run, no reference dangles. -/
theorem State.live_empty (c : Catalogue) : State.Live { catalogue := c } where
  memory := ⟨.empty, .empty⟩
  statics := .empty

/-- A heap with as many delegates or more may take the place of the one that is there. -/
theorem Memory.Live.withHeap {m : Memory} (hm : m.Live) {h : Heap}
    (hh : h.Holds (Value.LiveBelow h.delegates.size)) (hle : m.delegateCount ≤ h.delegates.size) :
    Memory.Live { m with heap := h } :=
  ⟨hh, hm.cells.mono fun _ hv => hv.mono hle⟩

/-- Another memory with no fewer delegates may take the place of the memory. -/
theorem State.Live.withMemory {s : State} (hs : s.Live) {m : Memory} (hm : m.Live)
    (hle : s.memory.delegateCount ≤ m.delegateCount) : State.Live { s with memory := m } :=
  ⟨hm, hs.statics.mono fun _ hv => hv.mono hle⟩

/-- From memory with `n` delegates or more, an action on memory leaves no reference dangling and no
delegate out, with results as `Q` says. -/
def KeepsLive (n : Nat) (Q : Nat → α → Prop) (action : StateM Memory α) : Prop :=
  ∀ m : Memory, m.Live → n ≤ m.delegateCount → (action m).2.Live ∧
    m.delegateCount ≤ (action m).2.delegateCount ∧ Q (action m).2.delegateCount (action m).1

/-! ## The host -/

/-- A type whose values start without dangling references. -/
def TypeDefinition.Live (d : TypeDefinition) : Prop :=
  ∀ initial, d.initial = some initial → KeepsLive 0 Value.LiveBelow initial

/-- A field of the host that is read and written without leaving references dangling. -/
structure Accessor.Live (a : Accessor) : Prop where
  /-- It is read so. -/
  get : ∀ (n : Nat) (target : Value), target.LiveBelow n → KeepsLive n AnswerLive (a.get target)
  /-- It is written so, if it can be written. -/
  set : ∀ write, a.set? = some write → ∀ (n : Nat) (target v : Value), target.LiveBelow n →
    v.LiveBelow n → KeepsLive n (fun _ _ => True) (write target v)

/-- From a memory, a program of the host leaves no reference dangling and no delegate out, and hands
over no reference that dangles, as long as the answers that it gets do not. -/
def Host.Live : Memory → Host Value → Prop
  | m, .done v => v.LiveBelow m.delegateCount
  | _, .fail _ => True
  | m, .read next => (next m).Live m
  | m, .write m' next => m'.Live ∧ m.delegateCount ≤ m'.delegateCount ∧ next.Live m'
  | m, .call _ receiver args next =>
    (∀ v ∈ receiver, v.LiveBelow m.delegateCount) ∧ (∀ v ∈ args, v.LiveBelow m.delegateCount) ∧
      ∀ (m' : Memory) r, m'.Live → m.delegateCount ≤ m'.delegateCount →
        AnswerLive m'.delegateCount r → (next r).Live m'
  | m, .callDelegate _ args next =>
    (∀ v ∈ args, v.LiveBelow m.delegateCount) ∧
      ∀ (m' : Memory) r, m'.Live → m.delegateCount ≤ m'.delegateCount →
        AnswerLive m'.delegateCount r → (next r).Live m'
  | m, .reload _ next => ∀ previous, (next previous).Live m

/-- Code of the host that leaves no reference dangling. -/
def HostCode.Live (code : HostCode) : Prop :=
  ∀ (m : Memory) (c : HostCall), m.Live → c.receiver.LiveBelow m.delegateCount →
    (∀ v ∈ c.args, v.LiveBelow m.delegateCount) → (code c).Live m

/-- A host that leaves no reference dangling. -/
structure SymbolTable.Live (symbols : SymbolTable) : Prop where
  /-- The values of its types start so. -/
  types : ∀ name d, symbols.findType? name = some d → d.Live
  /-- Its fields are read and written so. -/
  fields : ∀ key a, symbols.findField? key = some a → a.Live
  /-- Its methods leave none dangling. -/
  methods : ∀ h code, symbols.code? h = some code → HostCode.Live code

/-- A module of a host that leaves no reference dangling. -/
structure Module.Live (m : Module) : Prop where
  /-- The values of its types start so. -/
  types : m.types.Holds TypeDefinition.Live
  /-- Its methods leave none dangling. -/
  methods : m.methods.Holds fun d => HostCode.Live d.code
  /-- Its fields are read and written so. -/
  fields : m.fields.Holds Accessor.Live

/-- A host leaves none dangling if its modules do not. -/
theorem SymbolTable.live_of_modules {symbols : SymbolTable} (h : ∀ m ∈ symbols.modules, m.Live) :
    symbols.Live where
  types _ _ hd := holds_findType? (fun m hm => (h m hm).types) hd
  fields _ _ ha := holds_findField? (fun m hm => (h m hm).fields) ha
  methods _ _ hcode := holds_code? (fun m hm => (h m hm).methods) hcode

/-- A type that has been looked up, whose values start without dangling references. -/
def TypeHandle.Live (h : TypeHandle) : Prop := ∀ d ∈ h.definition, d.Live

/-- A field that has been looked up, whose accessor leaves no reference dangling. -/
def FieldHandle.Live (f : FieldHandle) : Prop := ∀ a ∈ f.accessor, a.Live

/-- Every type is of the family of all types. -/
theorem isFamily_true : IsFamily fun _ => True :=
  ⟨fun _ _ _ => trivial, fun _ _ _ => trivial, fun _ => trivial⟩

/-- Nothing is asked of the types in generic arguments. -/
theorem GenericContext.over_true (cx : GenericContext) : cx.Over fun _ => True :=
  ⟨fun _ _ => trivial, fun _ _ => trivial⟩

/-- A lookup gives types whose values start without dangling references. -/
theorem SymbolTable.Live.gives {symbols : SymbolTable} (hs : symbols.Live) :
    symbols.Gives (fun _ => True) TypeHandle.Live where
  named := by
    rintro name args d - hd _ ⟨⟩
    exact hs.types name d hd
  suffixed _ := nofun

/-! ## Computations of the machine -/

/-- A state without dangling references, which remembers only types whose values start so. -/
structure State.Steady (s : State) : Prop where
  /-- No reference dangles. -/
  live : s.Live
  /-- The values of the types that are remembered start so. -/
  memo : s.memo.types.Holds TypeHandle.Live

/-- An outcome with `n` delegates or more and without dangling references, with a result as `Q`
says. -/
structure Lived (n : Nat) (Q : Nat → α → Prop) (o : Except Stop α × State) : Prop where
  /-- No reference dangles. -/
  steady : o.2.Steady
  /-- No delegate is left out. -/
  count : n ≤ o.2.memory.delegateCount
  /-- The result is as `Q` says. -/
  result : ∀ a, o.1 = .ok a → Q o.2.memory.delegateCount a

/-- What goes on after an outcome goes on in the state that it leaves. -/
theorem Lived.bind {n : Nat} {Q : Nat → α → Prop} {R : Nat → β → Prop} {m : Machine α}
    {g : α → Machine β} {s : State} (hm : Lived n Q (m s))
    (hg : ∀ t a, t.Steady → n ≤ t.memory.delegateCount → Q t.memory.delegateCount a →
      Lived t.memory.delegateCount R (g a t)) : Lived n R ((m >>= g) s) := by
  rw [Machine.bind_apply]
  rcases hms : m s with ⟨stop | a, t⟩ <;> rw [hms] at hm
  · exact ⟨hm.steady, hm.count, nofun⟩
  · have hnext := hg t a hm.steady hm.count (hm.result a rfl)
    exact ⟨hnext.steady, hm.count.trans hnext.count, hnext.result⟩

/-- From states with `n` delegates or more, a computation leaves no reference dangling and no
delegate out, with results as `Q` says. -/
def Machine.Lives (n : Nat) (Q : Nat → α → Prop) (m : Machine α) : Prop :=
  ∀ s : State, s.Steady → n ≤ s.memory.delegateCount → Lived s.memory.delegateCount Q (m s)

namespace Machine.Lives

variable {n : Nat} {Q : Nat → α → Prop} {R : Nat → β → Prop} {m : Machine α}

/-- What does nothing leaves no reference dangling. -/
theorem pure {a : α} (h : ∀ n', n ≤ n' → Q n' a) : Machine.Lives n Q (pure a : Machine α) :=
  fun _ hs hn => ⟨hs, le_rfl, fun _ ha => Except.ok.inj ha ▸ h _ hn⟩

/-- Neither does an error. -/
theorem fail (e : Error) : Machine.Lives n Q (Machine.fail e : Machine α) :=
  fun _ hs _ => ⟨hs, le_rfl, nofun⟩

/-- Neither does running out of fuel. -/
theorem outOfFuel : Machine.Lives n Q (throw .outOfFuel : Machine α) :=
  fun _ hs _ => ⟨hs, le_rfl, nofun⟩

/-- Neither do two computations one after another. What is known of the first holds with the
delegates that are there then. -/
theorem bind {g : α → Machine β} (hm : m.Lives n Q)
    (hg : ∀ n' a, n ≤ n' → Q n' a → (g a).Lives n' R) : Machine.Lives n R (m >>= g) :=
  fun s hs hn => (hm s hs hn).bind fun t a ht hcount ha =>
    hg _ a (hn.trans hcount) ha t ht le_rfl

/-- What is made of a result there and then is held against the delegates there are then. -/
theorem map {g : α → β} (hm : m.Lives n Q) (hg : ∀ n' a, n ≤ n' → Q n' a → R n' (g a)) :
    Machine.Lives n R (m >>= fun a => Pure.pure (g a)) :=
  fun s hs hn => (hm s hs hn).bind fun _ a ht hcount ha =>
    ⟨ht, le_rfl, fun _ hb => Except.ok.inj hb ▸ hg _ a (hn.trans hcount) ha⟩

/-- Nor does one whose result is not looked at. -/
theorem discard (hm : m.Lives n Q) : Machine.Lives n (fun _ _ => True) (discard m) :=
  hm.map fun _ _ _ _ => trivial

/-- A computation that looks at the state goes on in that state. -/
theorem get_bind {g : State → Machine α}
    (hg : ∀ s : State, s.Steady → n ≤ s.memory.delegateCount →
      (g s).Lives s.memory.delegateCount Q) : Machine.Lives n Q (get >>= g) :=
  fun s hs hn => hg s hs hn s hs le_rfl

/-- Nor does a change of the state that keeps it steady. -/
theorem modify {g : State → State}
    (hg : ∀ s : State, s.Steady → n ≤ s.memory.delegateCount →
      (g s).Steady ∧ s.memory.delegateCount ≤ (g s).memory.delegateCount) :
    Machine.Lives n (fun _ _ => True) (modify g : Machine Unit) :=
  fun s hs hn => ⟨(hg s hs hn).1, (hg s hs hn).2, fun _ _ => trivial⟩

/-- Nor does a result that is there already. -/
theorem ofExcept {r : Except Error α} (h : ∀ a, r = .ok a → ∀ n', n ≤ n' → Q n' a) :
    Machine.Lives n Q (Machine.ofExcept r) := by
  cases r with
  | ok a => exact pure (h a rfl)
  | error e => exact fail e

/-- Nor does an operation on memory that leaves no reference dangling. -/
theorem onMemory {action : StateM Memory α} (h : KeepsLive n Q action) :
    Machine.Lives n Q (Machine.onMemory action) := by
  intro s hs hn
  obtain ⟨hlive, hcount, hresult⟩ := h s.memory hs.live.memory hn
  exact ⟨⟨hs.live.withMemory hlive hcount, hs.memo⟩, hcount,
    fun _ ha => Except.ok.inj ha ▸ hresult⟩

/-- Nor does one that may fail. -/
theorem onMemory? {action : MemoryAction α}
    (h : KeepsLive n (fun n' r => ∀ a, r = .ok a → Q n' a) action) :
    Machine.Lives n Q (Machine.onMemory? action) := by
  intro s hs hn
  obtain ⟨hlive, hcount, hresult⟩ := h s.memory hs.live.memory hn
  show Lived _ _ (Machine.ofExcept (action s.memory).1 { s with memory := (action s.memory).2 })
  have hsteady : State.Steady { s with memory := (action s.memory).2 } :=
    ⟨hs.live.withMemory hlive hcount, hs.memo⟩
  cases haction : (action s.memory).1 with
  | ok a => exact ⟨hsteady, hcount, fun _ ha => Except.ok.inj ha ▸ hresult a haction⟩
  | error e => exact ⟨hsteady, hcount, nofun⟩

/-- Nor does a lookup. -/
theorem resolve {lookup : Resolve α} {H : α → Prop} (h : lookup.Keeps TypeHandle.Live H) :
    Machine.Lives n (fun _ => H) (Machine.resolve lookup) := by
  intro s hs _
  obtain ⟨hresult, hmemo⟩ := h s.memo hs.memo
  show Lived _ _ (Machine.ofExcept (lookup s.memo).1 { s with memo := (lookup s.memo).2 })
  have hsteady : State.Steady { s with memo := (lookup s.memo).2 } :=
    ⟨⟨hs.live.memory, hs.live.statics⟩, hmemo⟩
  cases hlookup : (lookup s.memo).1 with
  | ok a => exact ⟨hsteady, le_rfl, fun _ ha => Except.ok.inj ha ▸ hresult a hlookup⟩
  | error e => exact ⟨hsteady, le_rfl, nofun⟩

/-- Nor does an attempt. -/
theorem attempt (hm : m.Lives n Q) :
    Machine.Lives n (fun n' r => ∀ a, r = .ok a → Q n' a) (attempt m) := by
  intro s hs hn
  have hfirst := hm s hs hn
  rw [attempt_apply]
  rcases hms : m s with ⟨(e | _) | a, t⟩ <;> rw [hms] at hfirst
  · refine ⟨hfirst.steady, hfirst.count, ?_⟩
    rintro _ ⟨⟩
    exact nofun
  · refine ⟨hfirst.steady, hfirst.count, ?_⟩
    rintro _ ⟨⟩
  · refine ⟨hfirst.steady, hfirst.count, ?_⟩
    rintro _ ⟨⟩ b hb
    exact Except.ok.inj hb ▸ hfirst.result a rfl

/-- A value for each of several others, one after another. -/
theorem mapM {g : β → Machine Value} (hg : ∀ b n', (g b).Lives n' Value.LiveBelow) (l : List β) :
    Machine.Lives n (fun n' vs => ∀ v ∈ vs, v.LiveBelow n') (l.mapM g) := by
  induction l generalizing n with
  | nil =>
    rw [List.mapM_nil]
    exact .pure fun _ _ _ hv => absurd hv List.not_mem_nil
  | cons b rest ih =>
    rw [List.mapM_cons]
    refine (hg b n).bind fun n₁ v _ hv => ih.bind fun n₂ vs hn hvs => .pure fun n₃ hn' => ?_
    exact List.forall_mem_cons.2
      ⟨hv.mono (hn.trans hn'), fun w hw => (hvs w hw).mono hn'⟩

end Machine.Lives

/-! ## Computations in a frame -/

/-- No value in a frame is a reference at an address or above it. -/
structure Frame.LiveBelow (n : Nat) (f : Frame) : Prop where
  /-- No argument is. -/
  args : ∀ v ∈ f.args, v.LiveBelow n
  /-- No local is. -/
  locals : ∀ v ∈ f.locals, v.LiveBelow n
  /-- No operand is. -/
  stack : ∀ v ∈ f.stack, v.LiveBelow n

/-- A frame does not dangle when there are more delegates. -/
theorem Frame.LiveBelow.mono {n n' : Nat} {f : Frame} (h : f.LiveBelow n) (hn : n ≤ n') :
    f.LiveBelow n' :=
  ⟨fun v hv => (h.args v hv).mono hn, fun v hv => (h.locals v hv).mono hn,
    fun v hv => (h.stack v hv).mono hn⟩

/-- From frames and states with `n` delegates or more, a computation leaves no reference dangling,
in the frame neither, with results as `Q` says. -/
def FrameAction.Lives (n : Nat) (Q : Nat → α → Prop) (x : FrameAction α) : Prop :=
  ∀ f : Frame, f.LiveBelow n →
    Machine.Lives n (fun n' r => Q n' r.1 ∧ r.2.LiveBelow n') (x f)

namespace FrameAction.Lives

variable {n : Nat} {Q : Nat → α → Prop} {R : Nat → β → Prop} {x : FrameAction α}

/-- What does nothing leaves no reference dangling in a frame. -/
theorem pure {a : α} (h : ∀ n', n ≤ n' → Q n' a) :
    FrameAction.Lives n Q (pure a : FrameAction α) :=
  fun _ hf => .pure fun n' hn => ⟨h n' hn, hf.mono hn⟩

/-- Neither do two computations in a frame one after another. -/
theorem bind {g : α → FrameAction β} (hx : FrameAction.Lives n Q x)
    (hg : ∀ n' a, n ≤ n' → Q n' a → FrameAction.Lives n' R (g a)) :
    FrameAction.Lives n R (x >>= g) := by
  intro f hf
  show Machine.Lives n _ (x f >>= fun r => g r.1 r.2 : Machine (β × Frame))
  exact (hx f hf).bind fun n' r hn hr => hg n' r.1 hn hr.1 r.2 hr.2

/-- Nor does one whose result is changed afterwards. -/
theorem map {γ : Type} {S : Nat → γ → Prop} {g : α → γ} (hx : FrameAction.Lives n Q x)
    (hg : ∀ n' a, Q n' a → S n' (g a)) : FrameAction.Lives n S (g <$> x) := by
  rw [map_eq_pure_bind]
  intro f hf
  show Machine.Lives n _ (x f >>= fun r => Pure.pure (g r.1, r.2) : Machine (γ × Frame))
  exact (hx f hf).map fun n' r _ hr => ⟨hg n' r.1 hr.1, hr.2⟩

/-- Nor does one whose result is not looked at. -/
theorem discard (hx : FrameAction.Lives n Q x) :
    FrameAction.Lives n (fun _ _ => True) (discard x) :=
  hx.map fun _ _ _ => trivial

/-- No reference in the frame that is read dangles. -/
theorem get : FrameAction.Lives n (fun n' f => f.LiveBelow n') get :=
  fun _ hf => .pure fun _ hn => ⟨hf.mono hn, hf.mono hn⟩

/-- A change of the frame that leaves no reference in it dangling may be made. -/
theorem modify {g : Frame → Frame} (hg : ∀ f : Frame, f.LiveBelow n → (g f).LiveBelow n) :
    FrameAction.Lives n (fun _ _ => True) (modify g) :=
  fun f hf => Machine.Lives.pure fun _ hn => ⟨trivial, (hg f hf).mono hn⟩

/-- A computation of the machine that leaves no reference dangling may be run in a frame. -/
theorem ofMachine {m : Machine α} (h : m.Lives n Q) : FrameAction.Lives n Q (ofMachine m) :=
  fun _ hf => h.map fun _ _ hn ha => ⟨ha, hf.mono hn⟩

/-- An error leaves no reference dangling. -/
theorem fail (e : Error) : FrameAction.Lives n Q (fail e : FrameAction α) := ofMachine (.fail e)

/-- Nor does a result that is there already. -/
theorem ofExcept {r : Except Error α} (h : ∀ a, r = .ok a → ∀ n', n ≤ n' → Q n' a) :
    FrameAction.Lives n Q (ofExcept r) :=
  ofMachine (.ofExcept h)

/-- What comes of names, numbers and the like holds no reference. -/
theorem ofExcept_any (r : Except Error α) :
    FrameAction.Lives n (fun _ _ => True) (FrameAction.ofExcept r) :=
  ofExcept fun _ _ _ _ => trivial

/-- Nor does an answer that does not dangle. -/
theorem ofExcept_value {r : Except Error Value} (h : AnswerLive n r) :
    FrameAction.Lives n Value.LiveBelow (FrameAction.ofExcept r) :=
  ofExcept fun v hv _ hn => (h v hv).mono hn

/-- Nor does a malformed descriptor. -/
theorem malformed (reason : Malformation) :
    FrameAction.Lives n Q (malformed reason : FrameAction α) :=
  get.bind fun _ _ _ _ => fail _

/-! ### The stack and the slots -/

/-- A value that does not dangle may be pushed. -/
theorem push {v : Value} (hv : v.LiveBelow n) :
    FrameAction.Lives n (fun _ _ => True) (push v) :=
  modify fun _ hf => ⟨hf.args, hf.locals, List.forall_mem_cons.2 ⟨hv, hf.stack⟩⟩

/-- A plain value may be pushed. -/
theorem push_plain {v : Value} (hv : v.IsPlain) :
    FrameAction.Lives n (fun _ _ => True) (FrameAction.push v) :=
  push (hv.liveBelow n)

/-- An empty stack leaves no reference dangling. -/
theorem underflow : FrameAction.Lives n Q (underflow : FrameAction α) :=
  get.bind fun _ _ _ _ => fail _

/-- The operand that is popped does not dangle. -/
theorem pop : FrameAction.Lives n Value.LiveBelow pop := by
  unfold FrameAction.pop
  refine get.bind fun n' f hn hf => ?_
  split
  · exact underflow
  · rename_i v rest hstack
    obtain ⟨hv, hrest⟩ := List.forall_mem_cons.1 (hstack ▸ hf.stack)
    refine bind (modify fun g hg => ?_) fun _ _ hn₁ _ => .pure fun _ hn₂ => ?_
    · exact ⟨hg.args, hg.locals, hrest⟩
    · exact hv.mono (hn₁.trans hn₂)

/-- Neither do several operands. -/
theorem popMany (count : Nat) :
    FrameAction.Lives n (fun n' vs => ∀ v ∈ vs, v.LiveBelow n') (popMany count) := by
  unfold FrameAction.popMany
  refine get.bind fun n' f hn hf => ?_
  dsimp only
  split
  · exact underflow
  · refine bind (modify fun g hg => ?_) fun n₁ _ hn₁ _ => .pure fun n₂ hn₂ v hv => ?_
    · exact ⟨hg.args, hg.locals, fun v hv => hf.stack v (List.mem_of_mem_drop hv)⟩
    · exact (hf.stack v (List.mem_of_mem_take (List.mem_reverse.1 hv))).mono (hn₁.trans hn₂)

/-- Neither do two. -/
theorem popPair :
    FrameAction.Lives n (fun n' p => p.1.LiveBelow n' ∧ p.2.LiveBelow n') popPair :=
  pop.bind fun _ _ _ hb => pop.bind fun _ _ hn ha => .pure fun _ hn' =>
    ⟨ha.mono hn', hb.mono (hn.trans hn')⟩

/-- The argument that is read does not dangle. -/
theorem loadArg (slot : Nat) : FrameAction.Lives n Value.LiveBelow (loadArg slot) := by
  unfold FrameAction.loadArg
  refine get.bind fun n' f hn hf => ?_
  split
  · rename_i v hv
    exact .pure fun _ hn' => (hf.args v (List.mem_of_getElem? hv)).mono hn'
  · exact malformed _

/-- A value that does not dangle may be stored as an argument. -/
theorem storeArg (slot : Nat) {v : Value} (hv : v.LiveBelow n) :
    FrameAction.Lives n (fun _ _ => True) (storeArg slot v) := by
  unfold FrameAction.storeArg
  refine get.bind fun n' f hn hf => ?_
  split
  · refine modify fun g hg => ⟨fun w hw => ?_, hg.locals, hg.stack⟩
    rcases List.mem_or_eq_of_mem_set hw with hw | rfl
    · exact hg.args w hw
    · exact hv.mono hn
  · exact malformed _

/-- The local that is read does not dangle. -/
theorem loadLocal (slot : Nat) : FrameAction.Lives n Value.LiveBelow (loadLocal slot) := by
  unfold FrameAction.loadLocal
  refine get.bind fun n' f hn hf => ?_
  split
  · rename_i v hv
    exact .pure fun _ hn' => (hf.locals v (List.mem_of_getElem? hv)).mono hn'
  · exact malformed _

/-- A value that does not dangle may be stored as a local. -/
theorem storeLocal (slot : Nat) {v : Value} (hv : v.LiveBelow n) :
    FrameAction.Lives n (fun _ _ => True) (storeLocal slot v) := by
  unfold FrameAction.storeLocal
  refine get.bind fun n' f hn hf => ?_
  split
  · refine modify fun g hg => ⟨hg.args, fun w hw => ?_, hg.stack⟩
    rcases List.mem_or_eq_of_mem_set hw with hw | rfl
    · exact hg.locals w hw
    · exact hv.mono hn
  · exact malformed _

/-! ### The operand

What is read from an operand is no reference. -/

variable (i : Instruction)

/-- Reading a slot from the operand leaves everything as it is. -/
theorem slotOperand : FrameAction.Lives n (fun _ _ => True) (slotOperand i) := by
  unfold FrameAction.slotOperand
  split
  · exact .pure fun _ _ => trivial
  · split
    · exact malformed _
    · exact .pure fun _ _ => trivial
  · exact malformed _

/-- So does reading one that may be part of the opcode. -/
theorem slotOf (slot : Option Nat) : FrameAction.Lives n (fun _ _ => True) (slotOf slot i) := by
  unfold FrameAction.slotOf
  split
  · exact .pure fun _ _ => trivial
  · exact slotOperand i

/-- So does reading an integer. -/
theorem intOperand : FrameAction.Lives n (fun _ _ => True) (intOperand i) := by
  unfold FrameAction.intOperand
  split
  · exact .pure fun _ _ => trivial
  · exact malformed _

/-- So does reading a floating-point number. -/
theorem floatOperand : FrameAction.Lives n (fun _ _ => True) (floatOperand i) := by
  unfold FrameAction.floatOperand
  split
  · exact .pure fun _ _ => trivial
  · exact .pure fun _ _ => trivial
  · exact malformed _

/-- So does reading a string. -/
theorem stringOperand : FrameAction.Lives n (fun _ _ => True) (stringOperand i) := by
  unfold FrameAction.stringOperand
  split
  · exact .pure fun _ _ => trivial
  · exact malformed _

/-- So does reading a branch target. -/
theorem targetOperand : FrameAction.Lives n (fun _ _ => True) (targetOperand i) := by
  unfold FrameAction.targetOperand
  split
  · exact .pure fun _ _ => trivial
  · exact malformed _

/-- So does reading several. -/
theorem targetsOperand : FrameAction.Lives n (fun _ _ => True) (targetsOperand i) := by
  unfold FrameAction.targetsOperand
  split
  · exact .pure fun _ _ => trivial
  · exact malformed _

/-- So does reading a method reference. -/
theorem methodOperand : FrameAction.Lives n (fun _ _ => True) (methodOperand i) := by
  unfold FrameAction.methodOperand
  split
  · exact ofExcept_any _
  · exact malformed _

/-- So does closing a type. -/
theorem closedType (text : String) : FrameAction.Lives n (fun _ _ => True) (closedType text) :=
  (ofExcept_any _).bind fun _ _ _ _ => get.bind fun _ _ _ _ => ofExcept_any _

/-- So does reading a type. -/
theorem typeOperand : FrameAction.Lives n (fun _ _ => True) (typeOperand i) := by
  unfold FrameAction.typeOperand
  split
  · exact closedType _
  · exact malformed _

/-- So does reading the type that a token stands for. -/
theorem tokenOperand : FrameAction.Lives n (fun _ _ => True) (tokenOperand i) := by
  unfold FrameAction.tokenOperand
  split
  · exact closedType _
  · exact malformed _

end FrameAction.Lives

end Hotswap
