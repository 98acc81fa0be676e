import Hotswap.Proofs.Machine.Carried
import Hotswap.Proofs.Machine.Contract

/-!
# Computations that run alike

Two computations are run side by side, from states that agree in everything but the catalogue in
force (`State.Agrees`) and are over a family `P` of types. The catalogues in force are as a relation
`K` says (`State.Matches`): with equality the two states are one, and with a relation that says
nothing they agree and no more.

* `Machine.Alike K P Q m m'`: the two have the same result or stop for the same reason, and the
  states that they leave match and are over `P`; results are as `Q` says.
* `FrameAction.Alike K P Q x x'`: the same of two computations in one frame that is over `P`, which
  leave one frame that is over `P`.
* `Host.Alike K p p'`: two programs of the host make the same requests, up to the catalogues that
  they put in force, as long as the answers are the same, up to the catalogues that they are given.

A computation that is alike to itself depends on the catalogue in force only as far as `K` lets it,
and stays over `P`. Two different ones arise where an instruction is run with different callees, and
where a program of the host goes on with different catalogues. The rules follow the monads, as those
of a contract do.
-/

namespace Hotswap

variable {α β : Type}

/-! ## States -/

/-- Two states that agree in everything but the catalogue in force. -/
structure State.Agrees (s s' : State) : Prop where
  /-- Memory is the same. -/
  memory : s.memory = s'.memory
  /-- The static fields are the same. -/
  statics : s.statics = s'.statics
  /-- What has been looked up is the same. -/
  memo : s.memo = s'.memo

namespace State.Agrees

variable {s s' s'' : State}

/-- A state agrees with itself. -/
theorem refl (s : State) : s.Agrees s := ⟨rfl, rfl, rfl⟩

/-- It does not matter which state comes first. -/
theorem symm (h : s.Agrees s') : s'.Agrees s := ⟨h.memory.symm, h.statics.symm, h.memo.symm⟩

/-- States that agree with one state agree. -/
theorem trans (h : s.Agrees s') (h' : s'.Agrees s'') : s.Agrees s'' :=
  ⟨h.memory.trans h'.memory, h.statics.trans h'.statics, h.memo.trans h'.memo⟩

end State.Agrees

/-- Two states that agree, with catalogues in force as a relation says. -/
structure State.Matches (K : Catalogue → Catalogue → Prop) (s s' : State) : Prop
    extends s.Agrees s' where
  /-- The catalogues in force are related. -/
  catalogue : K s.catalogue s'.catalogue

/-- A state matches itself, with one catalogue in force. -/
theorem State.Matches.refl (s : State) : s.Matches Eq s := ⟨.refl s, rfl⟩

/-- A state that agrees with one over a family is over it. -/
theorem State.Over.of_agrees {P : TypeName → Prop} {s s' : State} (hs : s.Over P)
    (h : s.Agrees s') : s'.Over P :=
  ⟨h.memory ▸ hs.memory, h.statics ▸ hs.statics, h.memo ▸ hs.memo⟩

/-! ## Outcomes -/

/-- Two outcomes with one result, or one reason to stop, in states that agree. -/
structure OutcomesAgree (r r' : Except Stop α × State) : Prop where
  /-- The result, or the reason to stop, is the same. -/
  result : r.1 = r'.1
  /-- The states agree. -/
  state : r.2.Agrees r'.2

namespace OutcomesAgree

variable {r r' r'' : Except Stop α × State}

/-- Equal outcomes agree. -/
theorem of_eq (h : r = r') : OutcomesAgree r r' := h ▸ ⟨rfl, .refl _⟩

/-- It does not matter which outcome comes first. -/
theorem symm (h : OutcomesAgree r r') : OutcomesAgree r' r := ⟨h.result.symm, h.state.symm⟩

/-- Outcomes that agree with one outcome agree. -/
theorem trans (h : OutcomesAgree r r') (h' : OutcomesAgree r' r'') : OutcomesAgree r r'' :=
  ⟨h.result.trans h'.result, h.state.trans h'.state⟩

end OutcomesAgree

/-- Two outcomes with one result, as `Q` says, or with one reason to stop, in states that match and
are over the family. -/
inductive SameOutcome (K : Catalogue → Catalogue → Prop) (P : TypeName → Prop) (Q : α → Prop) :
    Except Stop α × State → Except Stop α × State → Prop
  | ok {a : α} {s s' : State} (ha : Q a) (hs : s.Matches K s') (hover : s.Over P) :
      SameOutcome K P Q (.ok a, s) (.ok a, s')
  | stopped {stop : Stop} {s s' : State} (hs : s.Matches K s') (hover : s.Over P) :
      SameOutcome K P Q (.error stop, s) (.error stop, s')

namespace SameOutcome

variable {K : Catalogue → Catalogue → Prop} {P : TypeName → Prop} {Q : α → Prop}
  {r r' : Except Stop α × State}

/-- The outcomes agree. -/
theorem agree (h : SameOutcome K P Q r r') : OutcomesAgree r r' := by
  cases h with
  | ok _ hs _ => exact ⟨rfl, hs.toAgrees⟩
  | stopped hs _ => exact ⟨rfl, hs.toAgrees⟩

/-- The state that is left is over the family. -/
theorem stateOver (h : SameOutcome K P Q r r') : r.2.Over P := by
  cases h with
  | ok _ _ hover => exact hover
  | stopped _ hover => exact hover

/-- The result is as `Q` says. -/
theorem holds (h : SameOutcome K P Q r r') {a : α} (ha : r.1 = .ok a) : Q a := by
  cases h with
  | ok hQ _ _ => exact Except.ok.inj ha ▸ hQ
  | stopped _ _ => cases ha

end SameOutcome

/-! ## Computations of the machine -/

/-- From states that match and are over the family, the computations have the same outcome. -/
def Machine.Alike (K : Catalogue → Catalogue → Prop) (P : TypeName → Prop) (Q : α → Prop)
    (m m' : Machine α) : Prop :=
  ∀ s s' : State, s.Matches K s' → s.Over P → SameOutcome K P Q (m s) (m' s')

namespace Machine.Alike

variable {K : Catalogue → Catalogue → Prop} {P : TypeName → Prop} {Q : α → Prop} {S : β → Prop}
  {m m' : Machine α}

/-- What does nothing is alike. -/
theorem pure {a : α} (h : Q a) : Alike K P Q (pure a : Machine α) (pure a) :=
  fun _ _ hs hover => .ok h hs hover

/-- An error is the same on both sides. -/
theorem fail (e : Error) : Alike K P Q (Machine.fail e : Machine α) (Machine.fail e) :=
  fun _ _ hs hover => .stopped hs hover

/-- Running out of fuel is the same on both sides. -/
theorem outOfFuel : Alike K P Q (throw .outOfFuel : Machine α) (throw .outOfFuel) :=
  fun _ _ hs hover => .stopped hs hover

/-- Computations that are alike one after another are alike. -/
theorem bind {k k' : α → Machine β} (hm : Alike K P Q m m')
    (hk : ∀ a, Q a → Alike K P S (k a) (k' a)) : Alike K P S (m >>= k) (m' >>= k') := by
  intro s s' hs hover
  have hsame := hm s s' hs hover
  rw [bind_apply, bind_apply]
  generalize m s = r at hsame
  generalize m' s' = r' at hsame
  cases hsame with
  | ok ha hs hover => exact hk _ ha _ _ hs hover
  | stopped hs hover => exact .stopped hs hover

/-- They are alike without their results. -/
theorem discard (hm : Alike K P Q m m') : Alike K P (fun _ => True) (discard m) (discard m') := by
  show Alike K P (fun _ => True) (m >>= fun _ => Pure.pure ()) (m' >>= fun _ => Pure.pure ())
  exact hm.bind fun _ _ => pure trivial

/-- A computation that looks at the state goes on in that state. -/
theorem get_bind_at {k k' : State → Machine α}
    (hk : ∀ s s' : State, s.Matches K s' → s.Over P → SameOutcome K P Q (k s s) (k' s' s')) :
    Alike K P Q (get >>= k) (get >>= k') := hk

/-- A computation that looks at the state may use what agrees. -/
theorem get_bind {k k' : State → Machine α}
    (hk : ∀ s s' : State, s.Matches K s' → s.Over P → Alike K P Q (k s) (k' s')) :
    Alike K P Q (get >>= k) (get >>= k') :=
  get_bind_at fun s s' hs hover => hk s s' hs hover s s' hs hover

/-- A change of the state is in order if it keeps matching states matching and over the family. -/
theorem modify {g : State → State}
    (hmatches : ∀ s s' : State, s.Matches K s' → (g s).Matches K (g s'))
    (hover : ∀ s : State, s.Over P → (g s).Over P) :
    Alike K P (fun _ => True) (modify g : Machine Unit) (modify g) :=
  fun s s' hs hs' => .ok trivial (hmatches s s' hs) (hover s hs')

/-- A result that is there already is the same on both sides. -/
theorem ofExcept {r : Except Error α} (h : ∀ a, r = .ok a → Q a) :
    Alike K P Q (Machine.ofExcept r) (Machine.ofExcept r) := by
  cases r with
  | ok a => exact pure (h a rfl)
  | error e => exact fail e

/-- An action on memory does the same to the same memory. -/
theorem onMemory {action : StateM Memory α} (h : KeepsMemory P Q action) :
    Alike K P Q (Machine.onMemory action) (Machine.onMemory action) := by
  intro s s' hs hover
  obtain ⟨hresult, hkeeps⟩ := h s.memory hover.memory
  show SameOutcome K P Q (.ok (action s.memory).1, { s with memory := (action s.memory).2 })
    (.ok (action s'.memory).1, { s' with memory := (action s'.memory).2 })
  rw [← hs.memory]
  exact .ok hresult ⟨⟨rfl, hs.statics, hs.memo⟩, hs.catalogue⟩ ⟨hkeeps, hover.statics, hover.memo⟩

/-- An operation on memory that may fail is alike if it keeps memory over the family. -/
theorem onMemory? {action : MemoryAction α}
    (h : KeepsMemory P (fun r => ∀ a, r = .ok a → Q a) action) :
    Alike K P Q (Machine.onMemory? action) (Machine.onMemory? action) := by
  unfold Machine.onMemory?
  exact (onMemory h).bind fun r hr => ofExcept hr

/-- A lookup gives the same where the same has been looked up. -/
theorem resolve {lookup : Resolve α} (h : KeepsMemo P Q lookup) :
    Alike K P Q (Machine.resolve lookup) (Machine.resolve lookup) := by
  unfold Machine.resolve
  refine get_bind fun s s' hs hover => ?_
  obtain ⟨hresult, hkeeps⟩ := h s.memo hover.memo
  rw [← hs.memo]
  refine (modify (fun t t' ht => ?_) fun t ht => ?_).bind fun _ _ => ofExcept hresult
  · exact ⟨⟨ht.memory, ht.statics, rfl⟩, ht.catalogue⟩
  · exact ⟨ht.memory, ht.statics, hkeeps⟩

/-- An attempt is alike if what is attempted is. -/
theorem attempt (hm : Alike K P Q m m') :
    Alike K P (fun r => ∀ a, r = .ok a → Q a) (attempt m) (attempt m') := by
  intro s s' hs hover
  have hsame := hm s s' hs hover
  rw [attempt_apply, attempt_apply]
  generalize m s = r at hsame
  generalize m' s' = r' at hsame
  cases hsame with
  | ok ha hs hover => exact .ok (fun _ hr => Except.ok.inj hr ▸ ha) hs hover
  | @stopped stop s s' hs hover =>
    cases stop with
    | failed e => exact .ok nofun hs hover
    | outOfFuel => exact .stopped hs hover

/-- A computation for each of several values, one after another. -/
theorem mapM {k k' : β → Machine α} (hk : ∀ b, Alike K P Q (k b) (k' b)) (l : List β) :
    Alike K P (fun as => ∀ a ∈ as, Q a) (l.mapM k) (l.mapM k') := by
  induction l with
  | nil =>
    rw [List.mapM_nil, List.mapM_nil]
    exact .pure fun _ ha => absurd ha List.not_mem_nil
  | cons b rest ih =>
    rw [List.mapM_cons, List.mapM_cons]
    refine (hk b).bind fun a ha => ih.bind fun as has => .pure fun a' ha' => ?_
    rcases List.mem_cons.1 ha' with rfl | ha'
    · exact ha
    · exact has a' ha'

end Machine.Alike

/-! ## Computations in a frame -/

/-- From one frame over the family, the computations have the same outcome, with one frame over the
family. -/
def FrameAction.Alike (K : Catalogue → Catalogue → Prop) (P : TypeName → Prop) (Q : α → Prop)
    (x x' : FrameAction α) : Prop :=
  ∀ f : Frame, f.Over P → Machine.Alike K P (fun r => Q r.1 ∧ r.2.Over P) (x f) (x' f)

namespace FrameAction.Alike

variable {K : Catalogue → Catalogue → Prop} {P : TypeName → Prop} {Q : α → Prop} {S : β → Prop}
  {x x' : FrameAction α}

/-- What does nothing is alike in a frame. -/
theorem pure {a : α} (h : Q a) : Alike K P Q (pure a : FrameAction α) (pure a) :=
  fun _ hf => Machine.Alike.pure ⟨h, hf⟩

/-- Computations in a frame that are alike one after another are alike. -/
theorem bind {k k' : α → FrameAction β} (hx : Alike K P Q x x')
    (hk : ∀ a, Q a → Alike K P S (k a) (k' a)) : Alike K P S (x >>= k) (x' >>= k') := by
  intro f hf
  show Machine.Alike K P _ (x f >>= fun r => k r.1 r.2 : Machine (β × Frame))
    (x' f >>= fun r => k' r.1 r.2)
  exact (hx f hf).bind fun r hr => hk r.1 hr.1 r.2 hr.2

/-- A result that is changed afterwards is alike. -/
theorem map {g : α → β} (hx : Alike K P Q x x') (hg : ∀ a, Q a → S (g a)) :
    Alike K P S (g <$> x) (g <$> x') := by
  rw [map_eq_pure_bind, map_eq_pure_bind]
  exact hx.bind fun a ha => .pure (hg a ha)

/-- They are alike without their results. -/
theorem discard (hx : Alike K P Q x x') : Alike K P (fun _ => True) (discard x) (discard x') :=
  hx.map fun _ _ => trivial

/-- The frame is the same on both sides. -/
theorem get : Alike K P (Frame.Over P) get get := fun _ hf => Machine.Alike.pure ⟨hf, hf⟩

/-- A change of the frame that stays over the family is alike. -/
theorem modify {g : Frame → Frame} (hg : ∀ f : Frame, f.Over P → (g f).Over P) :
    Alike K P (fun _ => True) (modify g) (modify g) :=
  fun f hf => Machine.Alike.pure ⟨trivial, hg f hf⟩

/-- A computation of the machine is alike in a frame. -/
theorem ofMachine {m m' : Machine α} (h : Machine.Alike K P Q m m') :
    Alike K P Q (ofMachine m) (ofMachine m') :=
  fun _ hf => h.bind fun _ ha => .pure ⟨ha, hf⟩

/-- An error is the same on both sides. -/
theorem fail (e : Error) : Alike K P Q (fail e : FrameAction α) (fail e) := ofMachine (.fail e)

/-- A result that is there already is the same on both sides. -/
theorem ofExcept {r : Except Error α} (h : ∀ a, r = .ok a → Q a) :
    Alike K P Q (ofExcept r) (ofExcept r) :=
  ofMachine (.ofExcept h)

/-- A malformed descriptor is the same fault on both sides. -/
theorem malformed (reason : Malformation) :
    Alike K P Q (malformed reason : FrameAction α) (malformed reason) :=
  get.bind fun _ _ => fail _

/-- What a computation that is alike to itself gives is as `Q` says. -/
theorem holds (h : Alike Eq P Q x x) {f f' : Frame} (hf : f.Over P) {s t : State} (hs : s.Over P)
    {a : α} (hx : x f s = (.ok (a, f'), t)) : Q a := by
  have hrun := h f hf s s (.refl s) hs
  rw [hx] at hrun
  exact (hrun.holds rfl).1

end FrameAction.Alike

/-! ## Programs of the host -/

/-- Two programs of the host that make the same requests. The catalogues that they put in force are
as `K` says, and as long as those that they are given are so, they go on alike. -/
inductive Host.Alike (K : Catalogue → Catalogue → Prop) : Host α → Host α → Prop
  /-- They give the same. -/
  | done (a : α) : Alike K (.done a) (.done a)
  /-- They fail alike. -/
  | fail (e : Error) : Alike K (.fail e) (.fail e)
  /-- They go on alike with what memory holds. -/
  | read {next next' : Memory → Host α} (h : ∀ m, Alike K (next m) (next' m)) :
      Alike K (.read next) (.read next')
  /-- They write the same. -/
  | write (m : Memory) {next next' : Host α} (h : Alike K next next') :
      Alike K (.write m next) (.write m next')
  /-- They call one method with the same, and go on alike with the answer. -/
  | call (s : Signature) (receiver : Option Value) (args : List Value)
      {next next' : Except Error Value → Host α} (h : ∀ r, Alike K (next r) (next' r)) :
      Alike K (.call s receiver args next) (.call s receiver args next')
  /-- They call one delegate with the same, and go on alike with the answer. -/
  | callDelegate (address : Nat) (args : List Value) {next next' : Except Error Value → Host α}
      (h : ∀ r, Alike K (next r) (next' r)) :
      Alike K (.callDelegate address args next) (.callDelegate address args next')
  /-- They exchange the catalogue in force, each for its own. -/
  | reload {c c' : Catalogue} {next next' : Catalogue → Host α} (hc : K c c')
      (h : ∀ previous previous', K previous previous' →
        Alike K (next previous) (next' previous')) :
      Alike K (.reload c next) (.reload c' next')

/-- With equality of catalogues every program is alike to itself. -/
theorem Host.Alike.refl (p : Host α) : p.Alike Eq p := by
  induction p with
  | done a => exact .done a
  | fail e => exact .fail e
  | read next ih => exact .read ih
  | write m next ih => exact .write m ih
  | call s receiver args next ih => exact .call s receiver args ih
  | callDelegate address args next ih => exact .callDelegate address args ih
  | reload c next ih =>
    refine .reload rfl ?_
    rintro previous _ rfl
    exact ih previous

/-- Code of the host that sees of the catalogues it takes out of force what a relation lets it see:
with related catalogues it makes the same requests. -/
def HostCode.Respects (K : Catalogue → Catalogue → Prop) (code : HostCode) : Prop :=
  ∀ c : HostCall, (code c).Alike K (code c)

/-- A host whose methods see of the catalogues they take out of force what a relation lets them
see. -/
def SymbolTable.Respects (K : Catalogue → Catalogue → Prop) (symbols : SymbolTable) : Prop :=
  ∀ h code, symbols.code? h = some code → HostCode.Respects K code

/-- A host may see everything of the catalogues that it takes out of force. -/
theorem SymbolTable.respects_eq (symbols : SymbolTable) : symbols.Respects Eq :=
  fun _ _ _ _ => .refl _

end Hotswap
