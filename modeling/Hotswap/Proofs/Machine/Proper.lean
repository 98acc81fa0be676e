import Hotswap.Proofs.Machine.LiveRun
import Hotswap.Proofs.Machine.Unseen

/-!
# Proper states

In a proper state no reference dangles, every type can be read, and what is remembered of types is
what the symbols say (`State.Proper`). A state in which nothing has been run is proper, and from a
proper state only proper ones are come to: after an invocation (`State.proper_invoke`), after a call
(`State.proper_call`), and with each frame that the body of a call comes to
(`Call.proper_of_reaches`).

A proper state corresponds to itself with a delegate more (`State.Proper.shifts`): no reference is
to the address that the new one gets. That is also why it stays proper. Side by side with the other
state, a run stays with what can be read and with what the symbols say, so that all that is left is
the references, and those are known not to dangle.
-/

namespace Hotswap

variable {α α' : Type} {scope : Scope} {symbols : SymbolTable} {s t : State} {k : Nat}

/-- A state without dangling references, in which every type can be read and everything that is
remembered of types is what the symbols say. -/
structure State.Proper (symbols : SymbolTable) (s : State) : Prop where
  /-- No reference dangles. -/
  live : s.Live
  /-- Every type in memory can be read. -/
  memory : s.memory.Readable
  /-- Every type in the static fields can. -/
  statics : s.statics.Holds (Value.Over TypeName.WellFormed)
  /-- What is remembered is what the symbols say. -/
  sound : s.memo.Sound symbols

/-- A value that may be used in a state: it does not dangle, and its type can be read. -/
def Value.ProperIn (s : State) (v : Value) : Prop :=
  v.LiveBelow s.memory.heap.delegates.size ∧ v.Over TypeName.WellFormed

/-- Before anything is run, a state is proper. -/
theorem State.proper_empty (symbols : SymbolTable) (c : Catalogue) :
    State.Proper symbols { catalogue := c } := by
  have hover : State.Over TypeName.WellFormed { catalogue := c } := State.over_empty c
  have hlocals : ∀ d ∈ (#[] : Array Delegate), d.method.LocalsReadable :=
    fun _ hd => absurd hd (Array.not_mem_empty _)
  exact ⟨State.live_empty c, ⟨⟨hover.memory.heap, hlocals⟩, .empty⟩, .empty,
    Memo.sound_empty symbols⟩

/-! ## One delegate more -/

/-- A reference to a delegate below the new one does not move. -/
theorem Value.LiveBelow.shift_eq {v : Value} (h : v.LiveBelow k) : v.shift k = v := by
  cases v with
  | delegate address => exact congrArg Value.delegate (if_pos h)
  | _ => rfl

/-- The state with a delegate more. -/
def State.withDelegate (s : State) (d : Delegate) : State :=
  { s with memory := { s.memory with heap := (s.memory.heap.newDelegate d).2 } }

/-- A table is left alone by a function that leaves its values alone. -/
theorem Table.Holds.map_eq_self {κ : Type} [Ord κ] {Q : α → Prop} {t : Table κ α}
    (h : t.Holds Q) {g : α → α} (hg : ∀ v, Q v → g v = v) : t.map g = t :=
  Table.ext ((List.map_congr_left fun e he => congrArg (Prod.mk e.1) (hg e.2 (h e he))).trans
    (List.map_id _))

/-- A proper state corresponds to one with a delegate more, whatever else of types is remembered
there. -/
theorem State.Proper.shifts (hs : s.Proper symbols) (d : Delegate)
    {memo memo' : Memo} (htypes : memo.types = s.memo.types) (hsound : memo'.Sound symbols)
    (hmethods : memo'.methods = memo.methods) :
    State.Shifts symbols s.memory.heap.delegates.size { s with memo }
      { s.withDelegate d with memo := memo' } := by
  have hshift : ∀ v : Value, v.LiveBelow s.memory.heap.delegates.size →
      v.shift s.memory.heap.delegates.size = v := fun v hv => hv.shift_eq
  have hobjects : s.memory.heap.objects.map (Instance.shift s.memory.heap.delegates.size) =
      s.memory.heap.objects :=
    (Array.map_congr_left fun i hi => congrArg (Instance.mk · i.payload)
      ((hs.live.memory.heap.objects i hi).map_eq_self hshift)).trans (Array.map_id _)
  have hitems : ∀ items ∈ s.memory.heap.arrays,
      items.map (Value.shift s.memory.heap.delegates.size) = items := fun items hitems =>
    (Array.map_congr_left fun v hv => hshift v (hs.live.memory.heap.arrays items hitems v hv)).trans
      (Array.map_id _)
  have harrays : s.memory.heap.arrays.map
      (Array.map (Value.shift s.memory.heap.delegates.size)) = s.memory.heap.arrays :=
    (Array.map_congr_left hitems).trans (Array.map_id _)
  have hdelegate : ∀ d ∈ s.memory.heap.delegates,
      d.shift s.memory.heap.delegates.size = d := by
    intro d hd
    have hreceiver := hs.live.memory.heap.receivers d hd
    obtain ⟨method, receiver⟩ := d
    cases receiver with
    | none => rfl
    | some v => exact congrArg (fun v => Delegate.mk method (some v)) (hshift v (hreceiver v rfl))
  have hdelegates : ∀ address, (s.memory.heap.delegates.push d)[
      shiftAddress s.memory.heap.delegates.size address]? =
        s.memory.heap.delegates[address]?.map
          (Delegate.shift s.memory.heap.delegates.size) := by
    intro address
    rw [Array.getElem?_push]
    unfold shiftAddress
    by_cases hlt : address < s.memory.heap.delegates.size
    · rw [if_pos hlt, if_neg hlt.ne, Array.getElem?_eq_getElem hlt]
      exact congrArg some (hdelegate _ (Array.getElem_mem hlt)).symm
    · have hle : s.memory.heap.delegates.size ≤ address := not_lt.1 hlt
      rw [if_neg hlt, if_neg (Nat.lt_succ_of_le hle).ne', Array.getElem?_eq_none hle,
        Array.getElem?_eq_none (Nat.le_succ_of_le hle)]
      rfl
  exact {
    memory := {
      heap := ⟨hobjects.symm, harrays.symm, le_rfl, Array.size_push _, hdelegates⟩
      cells := (hs.live.memory.cells.map_eq_self hshift).symm
      readable := hs.memory }
    statics := (hs.live.statics.map_eq_self hshift).symm
    readable := hs.statics
    sound := fun text handle hfound => hs.sound text handle (htypes ▸ hfound)
    sound' := hsound
    methods := hmethods
    catalogue := rfl }

/-! ## Runs -/

/-- In a host whose defaults do not dangle, what is remembered of types does not bring dangling
references in. -/
theorem State.Proper.steady (hs : s.Proper symbols) (hsymbols : symbols.Live) : s.Steady := by
  refine ⟨hs.live, fun e he d hd => ?_⟩
  obtain ⟨-, -, hhandle⟩ := hs.sound e.1 e.2 (Table.get?_eq_some_iff.2 he)
  obtain ⟨name, hfound⟩ := SymbolTable.exists_findType?_of_handleOf hhandle hd
  exact hsymbols.types name d hfound

/-- A computation that does not see a delegate more, and leaves no reference dangling, leaves a
proper state, with a result of which both is known. -/
theorem State.Proper.of_run (hs : s.Proper symbols) (hsymbols : symbols.Live)
    {Q : α → α' → Prop} {R : Nat → α → Prop} {m : Machine α} {m' : Machine α'}
    (hshifts : m.Shifts symbols s.memory.delegateCount Q m')
    (hlives : m.Lives s.memory.delegateCount R) :
    (m s).2.Proper symbols ∧
      ∀ a, (m s).1 = .ok a → (∃ a', Q a a') ∧ R (m s).2.memory.delegateCount a := by
  have hlived := hlives s (hs.steady hsymbols) le_rfl
  -- Any delegate will do as the one that is added.
  let d : Delegate := ⟨⟨default, {}, .host ⟨default, default, true, 0⟩⟩, none⟩
  have hrun := hshifts s _ (hs.shifts d rfl hs.sound rfl)
  generalize m s = o at hlived hrun
  generalize m' _ = o' at hrun
  cases hrun with
  | @ok a a' t t' ha ht =>
    refine ⟨⟨hlived.steady.live, ht.memory.readable, ht.readable, ht.sound⟩, ?_⟩
    rintro _ ⟨⟩
    exact ⟨⟨a', ha⟩, hlived.result a rfl⟩
  | stopped ht =>
    exact ⟨⟨hlived.steady.live, ht.memory.readable, ht.readable, ht.sound⟩, nofun⟩

variable (hscope : scope.Uniform) (hsymbols : scope.symbols.Live)

section values

variable {receiver : Option Value} {args : List Value}

/-- A proper receiver corresponds to itself. -/
theorem shiftsOption_of_proper (hreceiver : ∀ v ∈ receiver, v.ProperIn s) :
    ShiftsOption s.memory.delegateCount receiver receiver := by
  refine ⟨?_, fun v hv => (hreceiver v hv).2⟩
  cases receiver with
  | none => rfl
  | some v => exact congrArg some (hreceiver v rfl).1.shift_eq.symm

/-- Proper arguments correspond to themselves. -/
theorem shiftsAll_of_proper (hargs : ∀ v ∈ args, v.ProperIn s) :
    ShiftsAll s.memory.delegateCount args args := by
  refine ⟨?_, fun v hv => (hargs v hv).2⟩
  have hsame : args.map (Value.shift s.memory.delegateCount) = args.map id :=
    List.map_congr_left fun v hv => (hargs v hv).1.shift_eq
  rw [hsame, List.map_id]

include hscope hsymbols

/-- **A call keeps to proper states**, with everything that is called from it, and gives back a
value that is proper in the state that it leaves. -/
theorem State.proper_call (fuel : Nat) (hs : s.Proper scope.symbols) {m : Method} (hm : m.Readable)
    (hreceiver : ∀ v ∈ receiver, v.ProperIn s) (hargs : ∀ v ∈ args, v.ProperIn s) :
    (call scope fuel m receiver args s).2.Proper scope.symbols ∧
      ∀ v, (call scope fuel m receiver args s).1 = .ok v →
        v.ProperIn (call scope fuel m receiver args s).2 := by
  have hshifts := (shifts_call hscope s.memory.delegateCount fuel).method hm
    (shiftsOption_of_proper hreceiver) (shiftsAll_of_proper hargs)
  have hlives := (lives_call hsymbols fuel).method m (fun v hv => (hreceiver v hv).1)
    fun v hv => (hargs v hv).1
  obtain ⟨hproper, hresult⟩ := hs.of_run hsymbols hshifts hlives
  refine ⟨hproper, fun v hv => ?_⟩
  obtain ⟨⟨v', -, hover⟩, hlive⟩ := hresult v hv
  exact ⟨hlive, hover⟩

/-- Choosing a method keeps to proper states. No delegate goes away, and the method can be read. -/
theorem State.proper_method (hs : s.Proper scope.symbols) {b : BoundMethod}
    (hb : b.Over TypeName.WellFormed) :
    (scope.method b s).2.Proper scope.symbols ∧
      s.memory.delegateCount ≤ (scope.method b s).2.memory.delegateCount ∧
      ∀ m, (scope.method b s).1 = .ok m → m.Readable := by
  obtain ⟨hproper, hresult⟩ := hs.of_run hsymbols
    (shifts_method (k := s.memory.delegateCount) hscope hb) (lives_method scope b)
  refine ⟨hproper, (lives_method scope b s (hs.steady hsymbols) le_rfl).count, fun m hm => ?_⟩
  obtain ⟨⟨m', -, hreadable⟩, -⟩ := hresult m hm
  exact hreadable

/-- **An invocation keeps to proper states**: it chooses a method and calls it. -/
theorem State.proper_invoke (fuel : Nat) (hs : s.Proper scope.symbols) {signature : Signature}
    (hsignature : signature.Over TypeName.WellFormed) (hreceiver : ∀ v ∈ receiver, v.ProperIn s)
    (hargs : ∀ v ∈ args, v.ProperIn s) :
    (invoke scope fuel signature receiver args s).2.Proper scope.symbols ∧
      ∀ v, (invoke scope fuel signature receiver args s).1 = .ok v →
        v.ProperIn (invoke scope fuel signature receiver args s).2 := by
  have hb : (BoundMethod.ofSignature signature none).Over TypeName.WellFormed :=
    ⟨hsignature, hsignature.context_wellFormed⟩
  obtain ⟨hproper, hcount, hreadable⟩ := State.proper_method hscope hsymbols hs hb
  have hkept : ∀ v : Value, v.ProperIn s →
      v.ProperIn (scope.method (.ofSignature signature none) s).2 :=
    fun v hv => ⟨hv.1.mono hcount, hv.2⟩
  rw [invoke, Machine.bind_apply]
  generalize scope.method (.ofSignature signature none) s = o at hproper hkept hreadable
  obtain ⟨stop | m, t⟩ := o
  · exact ⟨hproper, nofun⟩
  · exact State.proper_call hscope hsymbols fuel hproper (hreadable m rfl)
      (fun v hv => hkept v (hreceiver v hv)) fun v hv => hkept v (hargs v hv)

end values

/-! ## Frames -/

/-- The values of a frame are proper in a state, and its generic arguments can be read. -/
structure Frame.ProperIn (s : State) (f : Frame) : Prop where
  /-- No reference in it dangles. -/
  live : f.LiveBelow s.memory.delegateCount
  /-- Every type in it can be read. -/
  readable : f.Over TypeName.WellFormed

include hsymbols

/-- A computation in a frame keeps to proper states and frames. -/
theorem FrameAction.proper_of_run (hs : s.Proper scope.symbols) {f : Frame} (hf : f.ProperIn s)
    {Q : α → α' → Prop} {R : Nat → α → Prop} {x : FrameAction α} {x' : FrameAction α'}
    (hshifts : FrameAction.Shifts scope.symbols s.memory.delegateCount Q x x')
    (hlives : FrameAction.Lives s.memory.delegateCount R x) {a : α} {g : Frame}
    (h : x f s = (.ok (a, g), t)) : t.Proper scope.symbols ∧ g.ProperIn t := by
  obtain ⟨hproper, hresult⟩ := hs.of_run hsymbols (hshifts f hf.readable) (hlives f hf.live)
  rw [h] at hproper hresult
  obtain ⟨⟨r', -, -, hover⟩, -, hlive⟩ := hresult _ rfl
  exact ⟨hproper, hlive, hover⟩

include hscope

/-- **The frames that the body of a call comes to are proper**, each in the state that it is in. -/
theorem Call.proper_of_reaches {fuel : Nat} {c : Call} (hs : c.state.Proper scope.symbols)
    (hm : c.method.Readable) (hreceiver : ∀ v ∈ c.receiver, v.ProperIn c.state)
    (hargs : ∀ v ∈ c.args, v.ProperIn c.state) {f : Frame} (h : c.Reaches scope fuel f t) :
    t.Proper scope.symbols ∧ f.ProperIn t := by
  induction h with
  | @start d f t htarget hstart =>
    have hslots := shiftsAll_slots d (shiftsOption_of_proper hreceiver)
      (shiftsAll_of_proper hargs)
    have hshifts := shifts_start hscope (hm.locals d htarget) hm.types.context hslots
    have hlives := lives_start hsymbols d c.method.context (liveBelow_slots d
      (fun v hv => (hreceiver v hv).1) fun v hv => (hargs v hv).1)
    obtain ⟨hproper, hresult⟩ := hs.of_run hsymbols hshifts hlives
    rw [hstart] at hproper hresult
    obtain ⟨⟨f', -, hover⟩, hlive⟩ := hresult f rfl
    exact ⟨hproper, hlive, hover⟩
  | @next f f' u u' _ hround ih =>
    obtain ⟨hu, hf⟩ := ih
    exact FrameAction.proper_of_run hsymbols hu hf
      (shifts_round hscope (shifts_call hscope _ fuel)) (lives_round hsymbols
        (lives_call hsymbols fuel)) hround

end Hotswap
