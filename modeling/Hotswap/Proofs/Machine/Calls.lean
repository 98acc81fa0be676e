import Hotswap.Proofs.Machine.Lockstep

/-!
# Calls in a run

The run of a method is a tree of calls: the body of a method makes calls, whose bodies make calls in
turn. Nothing in a result tells them, so they are told by what a run depends on. A body *makes* a
call if there is an outcome of that call with which the body would have another one (`Call.Makes`).
No call that is made escapes this, since no code can go on after a callee that is out of fuel. There
are two ways to make a call, of a method that the body has bound and of a delegate, and they are
told apart by which of the two has another outcome (`Call.MakesBy`).

* `Call.Occurs scope fuel c n c'`: in the run of the call `c` with some fuel, the call `c'` is run
  with `n` of it, at whatever depth.
* `Call.Reaches scope n c f s`: the run of the descriptor of `c` comes to the frame `f` in the state
  `s`, at its beginning or after some rounds.

The first half carries the lockstep of instructions over to rounds, descriptors, programs of the
host and methods (`alike_call`). The second half draws the conclusion for a single run that begins
over a family of types: every call that occurs in it and every frame that it comes to is over the
family (`Call.Over.of_occurs`, `Call.Over.of_reaches`). A call within it of a bound method is of one
that is bound in the scope, and a call of a delegate is of one that the heap has
(`Call.Over.of_makesBy`).
-/

namespace Hotswap

open FrameAction

variable {K : Catalogue → Catalogue → Prop} {P : TypeName → Prop} {scope : Scope}
  {callee callee' : Callee}

/-! ## Rounds -/

/-- One round of a frame. There is a result if control leaves the frame. -/
def round (scope : Scope) (callee : Callee) : FrameAction (Option Value) := do
  let f ← get
  match f.descriptor.body.instructions.get? f.offset with
  | none => malformed .noInstruction
  | some i =>
    match ← step scope callee i with
    | .next => do
      advance i
      return none
    | .jump target => do
      enter target (.danglingTarget target)
      return none
    | .leave v => return some v

/-- The loop goes from round to round. -/
theorem loop_eq_round (scope : Scope) (callee : Callee) (fuel : Nat) :
    loop scope callee (fuel + 1) = (do
      match ← round scope callee with
      | none => loop scope callee fuel
      | some v => return v) := by
  rw [loop, round, bind_assoc]
  congr 1
  funext f
  cases f.descriptor.body.instructions.get? f.offset with
  | none => rfl
  | some i =>
    dsimp only
    rw [bind_assoc]
    congr 1
    funext flow
    cases flow with
    | next =>
      dsimp only
      rw [bind_assoc]
      rfl
    | jump target =>
      dsimp only
      rw [bind_assoc]
      rfl
    | leave v => rfl

/-- Entering an instruction is alike. -/
theorem alike_enter (offset : UInt32) (dangling : Malformation) :
    FrameAction.Alike K P (fun _ => True) (enter offset dangling) (enter offset dangling) := by
  unfold enter
  refine FrameAction.Alike.get.bind fun f _ => ?_
  split
  · exact .modify fun g hg => ⟨hg.context, hg.args, hg.locals, hg.stack⟩
  · exact .malformed _

/-- Passing to the next instruction is alike. -/
theorem alike_advance (i : Instruction) :
    FrameAction.Alike K P (fun _ => True) (advance i) (advance i) := by
  unfold advance
  split
  · exact alike_enter _ _
  · exact .malformed _

/-- A round is alike, if the calls are. -/
theorem alike_round (hs : scope.Over P) (hc : callee.Alike scope K P callee') :
    FrameAction.Alike K P (fun r => ∀ v ∈ r, v.Over P) (round scope callee)
      (round scope callee') := by
  unfold round
  refine FrameAction.Alike.get.bind fun f _ => ?_
  split
  · exact .malformed _
  · refine (alike_step hs hc _).bind fun flow hflow => ?_
    cases flow with
    | next => exact (alike_advance _).bind fun _ _ => .pure nofun
    | jump target => exact (alike_enter _ _).bind fun _ _ => .pure nofun
    | leave v =>
      refine .pure ?_
      rintro _ ⟨⟩
      exact hflow

/-- Any number of rounds are alike, if the calls are. -/
theorem alike_loop (hs : scope.Over P) (hc : callee.Alike scope K P callee') (fuel : Nat) :
    FrameAction.Alike K P (Value.Over P) (loop scope callee fuel) (loop scope callee' fuel) := by
  induction fuel with
  | zero => exact fun _ _ => .outOfFuel
  | succ fuel ih =>
    rw [loop_eq_round, loop_eq_round]
    refine (alike_round hs hc).bind fun r hr => ?_
    cases r with
    | none => exact ih
    | some v => exact .pure (hr v rfl)

/-! ## Descriptors -/

/-- A frame begins over the family: its locals start at the defaults of types that are closed with
arguments of the family. -/
theorem alike_start (hs : scope.Over P) (d : Descriptor) {context : GenericContext}
    (hcontext : context.Over P) {args : List Value} (hargs : ∀ v ∈ args, v.Over P) :
    Machine.Alike K P (Frame.Over P) (Frame.start scope d context args)
      (Frame.start scope d context args) := by
  have hlocals : Machine.Alike K P (fun vs => ∀ v ∈ vs, v.Over P)
      (d.body.locals.mapM fun t => do
        scope.defaultValue (← Machine.ofExcept (context.close t)))
      (d.body.locals.mapM fun t => do
        scope.defaultValue (← Machine.ofExcept (context.close t))) :=
    .mapM (fun t => (Machine.Alike.ofExcept fun u hu => hcontext.close hs.family hu).bind
      fun u hu => alike_defaultValue hs hu) _
  unfold Frame.start
  dsimp only
  split
  · exact (Machine.Alike.fail (Q := fun _ => True) _).bind fun _ _ => hlocals.bind fun vs hvs =>
      .pure ⟨hcontext, hargs, hvs, nofun⟩
  · exact hlocals.bind fun vs hvs => .pure ⟨hcontext, hargs, hvs, nofun⟩

/-- So is the run of a descriptor, from its first frame on. -/
theorem alike_execute (hs : scope.Over P) (hc : callee.Alike scope K P callee') (fuel : Nat)
    (d : Descriptor) {context : GenericContext} (hcontext : context.Over P) {args : List Value}
    (hargs : ∀ v ∈ args, v.Over P) :
    Machine.Alike K P (Value.Over P) (execute scope callee fuel d context args)
      (execute scope callee' fuel d context args) := by
  have hrun : FrameAction.Alike K P (Value.Over P) (runFrame scope callee fuel)
      (runFrame scope callee' fuel) := by
    unfold runFrame
    refine FrameAction.Alike.get.bind fun f _ => ?_
    split
    · exact .malformed _
    · exact alike_loop hs hc fuel
  unfold execute
  refine (alike_start hs d hcontext hargs).bind fun f hf => ?_
  show Machine.Alike K P _ (runFrame scope callee fuel f >>= fun r => pure r.1 : Machine Value)
    (runFrame scope callee' fuel f >>= fun r => pure r.1)
  exact (hrun f hf).bind fun r hr => .pure hr.1

/-- A receiver, or null in its place, is over the family. -/
theorem over_getD {receiver : Option Value} (h : ∀ v ∈ receiver, v.Over P) :
    (receiver.getD .null).Over P := by
  cases receiver with
  | none => trivial
  | some v => exact h v rfl

/-- The values that a frame begins with are over the family. -/
theorem over_slots (d : Descriptor) {receiver : Option Value} {args : List Value}
    (hreceiver : ∀ v ∈ receiver, v.Over P) (hargs : ∀ v ∈ args, v.Over P) :
    ∀ v ∈ slots d receiver args, v.Over P := by
  unfold slots
  split
  · exact hargs
  · intro v hv
    rcases List.mem_cons.1 hv with rfl | hv
    · exact over_getD hreceiver
    · exact hargs v hv

/-! ## Programs of the host -/

/-- The method of a signature over the family is over the family. -/
theorem alike_method_ofSignature (hs : scope.Over P) {s : Signature} (h : s.Over P) :
    Machine.Alike K P (fun m => m.Over P ∧ scope.Binds m) (scope.method (.ofSignature s none))
      (scope.method (.ofSignature s none)) :=
  alike_method scope ⟨⟨h, h.context hs.family⟩, .ofSignature s⟩

/-- Two programs of the host that make the same requests, of which the first stays over the family,
request by request. -/
theorem alike_run (hs : scope.Over P) (hc : callee.Alike scope K P callee') {p p' : Host Value}
    (hsame : p.Alike K p') (hp : p.Over P) :
    Machine.Alike K P (Value.Over P) (p.run scope callee) (p'.run scope callee') := by
  induction hsame with
  | done v => exact .pure hp
  | fail e => exact .fail e
  | read _ ih =>
    refine .get_bind fun s s' hmatches hover => ?_
    rw [← hmatches.memory]
    exact ih s.memory (hp s.memory hover.memory)
  | write m _ ih =>
    exact (alike_modifyMemory (g := fun _ => m) fun _ _ => hp.1).bind fun _ _ => ih hp.2
  | call s receiver args _ ih =>
    obtain ⟨hsignature, hreceiver, hargs, hnext⟩ := hp
    have hcall := (alike_method_ofSignature hs hsignature).bind fun m hm =>
      hc.method hm hreceiver hargs
    exact hcall.attempt.bind fun r hr => ih r (hnext r hr)
  | callDelegate address args _ ih =>
    refine (alike_callDelegate hc address hp.1).attempt.bind fun r hr => ?_
    exact ih r (hp.2 r hr)
  | @reload c c' next next' hcatalogue _ ih =>
    refine .get_bind fun s s' hmatches _ => ?_
    have hreload : Machine.Alike K P (fun _ => True)
        (modify fun s => { s with catalogue := c } : Machine Unit)
        (modify fun s => { s with catalogue := c' }) :=
      fun _ _ ht hover => .ok trivial ⟨⟨ht.memory, ht.statics, ht.memo⟩, hcatalogue⟩
        ⟨hover.memory, hover.statics, hover.memo⟩
    exact hreload.bind fun _ _ => ih _ _ hmatches.catalogue (hp _)

/-- Going on with the result of a program is running one after the other. -/
theorem Host.run_bind {α β : Type} (p : Host α) (f : α → Host β) :
    (p.bind f).run scope callee = p.run scope callee >>= fun a => (f a).run scope callee := by
  induction p with
  | done a => simp only [bind, run, pure_bind]
  | fail e => rfl
  | read | write | call | callDelegate | reload =>
    simp only [bind, run, LawfulMonad.bind_assoc, *]

/-- Runs the body of a method. The methods that it calls are run by a callee. -/
def runBody (scope : Scope) (callee : Callee) (fuel : Nat) : Callee :=
  .ofMethod fun m receiver args =>
    match m.target with
    | .patched d => execute scope callee fuel d m.context (slots d receiver args)
    | .host h =>
      match scope.symbols.code? h with
      | some code => (code ⟨m.signature, m.context, receiver.getD .null, args⟩).run scope callee
      | none => Machine.fail (.resolution m.signature.render)

/-- A body that is called over the family has the same outcome with callees that run alike. -/
theorem alike_runBody (hs : scope.Over P) (hk : scope.symbols.Respects K)
    (hc : callee.Alike scope K P callee') (fuel : Nat) {m : Method} (hm : m.Over P)
    {receiver : Option Value} (hreceiver : ∀ v ∈ receiver, v.Over P) {args : List Value}
    (hargs : ∀ v ∈ args, v.Over P) :
    Machine.Alike K P (Value.Over P) (runBody scope callee fuel m receiver args)
      (runBody scope callee' fuel m receiver args) := by
  unfold runBody Callee.ofMethod
  dsimp only
  split
  · exact alike_execute hs hc fuel _ hm.context (over_slots _ hreceiver hargs)
  · rename_i h _
    cases hcode : scope.symbols.code? h with
    | none => exact .fail _
    | some code =>
      refine alike_run hs hc (hk h code hcode _) (hs.symbols.methods h code hcode _ ?_)
      exact ⟨hm.signature, hm.context, over_getD hreceiver, hargs⟩

/-- **Calls in lockstep.** Whatever is called over the family has the same outcome from states that
match, and stays over the family, with everything that is called from it. -/
theorem Callee.alike_call (hs : scope.Over P) (hk : scope.symbols.Respects K) (fuel : Nat) :
    (call scope fuel).Alike scope K P (call scope fuel) := by
  induction fuel with
  | zero => exact .ofMethod fun _ _ _ => .outOfFuel
  | succ fuel ih =>
    exact .ofMethod fun hm hreceiver hargs => alike_runBody hs hk ih fuel hm hreceiver hargs

/-- A method that is called over the family has the same outcome from states that match. -/
theorem alike_call (hs : scope.Over P) (hk : scope.symbols.Respects K) (fuel : Nat) {m : Method}
    (hm : m.Over P) {receiver : Option Value} (hreceiver : ∀ v ∈ receiver, v.Over P)
    {args : List Value} (hargs : ∀ v ∈ args, v.Over P) :
    Machine.Alike K P (Value.Over P) (call scope fuel m receiver args)
      (call scope fuel m receiver args) := by
  cases fuel with
  | zero => exact .outOfFuel
  | succ fuel => exact alike_runBody hs hk (Callee.alike_call hs hk fuel) fuel hm hreceiver hargs

/-- An invocation over the family has the same outcome from states that match, and stays over the
family. -/
theorem alike_invoke (hs : scope.Over P) (hk : scope.symbols.Respects K) (fuel : Nat)
    {s : Signature} (h : s.Over P) {receiver : Option Value} (hreceiver : ∀ v ∈ receiver, v.Over P)
    {args : List Value} (hargs : ∀ v ∈ args, v.Over P) :
    Machine.Alike K P (Value.Over P) (invoke scope fuel s receiver args)
      (invoke scope fuel s receiver args) :=
  (alike_method_ofSignature hs h).bind fun _ hm => alike_call hs hk fuel hm.1 hreceiver hargs

/-! ## The calls of a body -/

/-- A method with what it is called with, and the state that it is called in. -/
structure Call where
  /-- The method. -/
  method : Method
  /-- The receiver, if there is one. -/
  receiver : Option Value
  /-- The arguments. -/
  args : List Value
  /-- The state. -/
  state : State

namespace Call

/-- The same call up to the catalogue in force. -/
structure Agrees (c c' : Call) : Prop where
  /-- The method is the same. -/
  method : c.method = c'.method
  /-- The receiver is the same. -/
  receiver : c.receiver = c'.receiver
  /-- The arguments are the same. -/
  args : c.args = c'.args
  /-- The states agree. -/
  state : c.state.Agrees c'.state

namespace Agrees

variable {c c' c'' : Call}

/-- A call agrees with itself. -/
theorem refl (c : Call) : c.Agrees c := ⟨rfl, rfl, rfl, .refl _⟩

/-- It does not matter which call comes first. -/
theorem symm (h : c.Agrees c') : c'.Agrees c :=
  ⟨h.method.symm, h.receiver.symm, h.args.symm, h.state.symm⟩

/-- One call in two states that agree. -/
theorem of_state {m : Method} {receiver : Option Value} {args : List Value} {s s' : State}
    (h : s.Agrees s') : Agrees ⟨m, receiver, args, s⟩ ⟨m, receiver, args, s'⟩ :=
  ⟨rfl, rfl, rfl, h⟩

/-- Calls that agree with one call agree. -/
theorem trans (h : c.Agrees c') (h' : c'.Agrees c'') : c.Agrees c'' :=
  ⟨h.method.trans h'.method, h.receiver.trans h'.receiver, h.args.trans h'.args,
    h.state.trans h'.state⟩

end Agrees

/-- The method, the values that it is called with and the state are over the family. -/
structure Over (P : TypeName → Prop) (c : Call) : Prop where
  /-- The method is over the family. -/
  method : c.method.Over P
  /-- The receiver is. -/
  receiver : ∀ v ∈ c.receiver, v.Over P
  /-- The arguments are. -/
  args : ∀ v ∈ c.args, v.Over P
  /-- The state is. -/
  state : c.state.Over P

/-- The catalogue in force has no part in being over a family. -/
theorem Over.of_agrees {c c' : Call} (hc : c.Over P) (h : c.Agrees c') : c'.Over P :=
  ⟨h.method ▸ hc.method, h.receiver ▸ hc.receiver, h.args ▸ hc.args, hc.state.of_agrees h.state⟩

/-- What comes of a call whose body is run with a callee. -/
def outcome (scope : Scope) (callee : Callee) (fuel : Nat) (c : Call) : Except Stop Value × State :=
  runBody scope callee fuel c.method c.receiver c.args c.state

end Call

/-- How a body calls. -/
inductive CallWay where
  /-- It binds a method and calls it. -/
  | bound
  /-- It calls a delegate. -/
  | delegate

/-- The delegate that a call is of, if it is one of a delegate. -/
def Call.callable (c : Call) : Delegate := ⟨c.method, c.receiver⟩

open Classical in
/-- The callee with another outcome of one call that is made in one way. -/
noncomputable def Callee.update (callee : Callee) (way : CallWay) (c : Call)
    (r : Except Stop Value × State) : Callee where
  method m receiver args s :=
    if way = .bound ∧ c.Agrees ⟨m, receiver, args, s⟩ then r else callee m receiver args s
  delegate d args s :=
    if way = .delegate ∧ c.Agrees ⟨d.method, d.receiver, args, s⟩ then r
    else callee.delegate d args s

/-- A call that is over the family, and of what can be called in that way: a method that is bound in
the scope, or a delegate that the heap has. -/
def Call.Allowed (scope : Scope) (P : TypeName → Prop) (c : Call) : CallWay → Prop
  | .bound => c.Over P ∧ scope.Binds c.method
  | .delegate => c.Over P ∧ c.callable ∈ c.state.memory.heap.delegates

/-- A call that is not allowed may have any outcome. -/
theorem Callee.Alike.update (hc : callee.Alike scope K P callee) {way : CallWay} {c : Call}
    (h : ¬c.Allowed scope P way) (r : Except Stop Value × State) :
    callee.Alike scope K P (callee.update way c r) where
  method {m receiver args} hm hreceiver hargs s s' hs hover := by
    have hne : ¬(way = .bound ∧ c.Agrees ⟨m, receiver, args, s'⟩) := by
      rintro ⟨rfl, hsame⟩
      have hagrees : Call.Agrees ⟨m, receiver, args, s⟩ c :=
        (Call.Agrees.of_state hs.toAgrees).trans hsame.symm
      have hover : Call.Over P ⟨m, receiver, args, s⟩ := ⟨hm.1, hreceiver, hargs, hover⟩
      exact h ⟨hover.of_agrees hagrees, hsame.method ▸ hm.2⟩
    unfold Callee.update
    dsimp only
    rw [if_neg hne]
    exact hc.method hm hreceiver hargs s s' hs hover
  delegate {d args} hd hargs s s' hs hover hmem := by
    have hne : ¬(way = .delegate ∧ c.Agrees ⟨d.method, d.receiver, args, s'⟩) := by
      rintro ⟨rfl, hsame⟩
      have hagrees : Call.Agrees ⟨d.method, d.receiver, args, s⟩ c :=
        (Call.Agrees.of_state hs.toAgrees).trans hsame.symm
      have hover : Call.Over P ⟨d.method, d.receiver, args, s⟩ :=
        ⟨hd.method, hd.receiver, hargs, hover⟩
      refine h ⟨hover.of_agrees hagrees, ?_⟩
      unfold Call.callable
      rw [hsame.method, hsame.receiver, ← hagrees.state.memory]
      exact hmem
    unfold Callee.update
    dsimp only
    rw [if_neg hne]
    exact hc.delegate hd hargs s s' hs hover hmem

namespace Call

/-- In the run of a call, the body makes a call in a way: with another outcome of that call, as it
is made in that way, the body has another outcome. -/
def MakesBy (scope : Scope) (way : CallWay) (fuel : Nat) (c c' : Call) : Prop :=
  ∃ r, ¬OutcomesAgree (c.outcome scope (call scope fuel) fuel)
    (c.outcome scope ((call scope fuel).update way c' r) fuel)

/-- In the run of a call, the body makes a call, in one of the two ways. -/
def Makes (scope : Scope) (fuel : Nat) (c c' : Call) : Prop :=
  ∃ way, c.MakesBy scope way fuel c'

/-- The calls that are run in the run of a call, at any depth, each with the fuel that is left. -/
inductive Occurs (scope : Scope) (fuel : Nat) (c : Call) : Nat → Call → Prop
  /-- The call itself. -/
  | self {c' : Call} (h : c.Agrees c') : Occurs scope fuel c fuel c'
  /-- A call that the body of a call makes. -/
  | nested {n : Nat} {c' c'' : Call} (h : Occurs scope fuel c (n + 1) c')
      (hmakes : c'.Makes scope n c'') : Occurs scope fuel c n c''

/-- The frames that the body of a call comes to, each with the state. -/
inductive Reaches (scope : Scope) (fuel : Nat) (c : Call) : Frame → State → Prop
  /-- The frame that the descriptor begins with. -/
  | start {d : Descriptor} {f : Frame} {s : State} (htarget : c.method.target = .patched d)
      (hstart : Frame.start scope d c.method.context (slots d c.receiver c.args) c.state =
        (.ok f, s)) : Reaches scope fuel c f s
  /-- The frame after a round. -/
  | next {f f' : Frame} {s s' : State} (h : Reaches scope fuel c f s)
      (hround : round scope (call scope fuel) f s = (.ok (none, f'), s')) :
      Reaches scope fuel c f' s'

variable {fuel n : Nat} {c c' : Call}

/-- A body makes a call in a way if what it comes to is another outcome of that call when the call
has that outcome. -/
theorem makesBy_of_update {way : CallWay}
    (h : ∀ r, OutcomesAgree (c.outcome scope ((call scope fuel).update way c' r) fuel) r) :
    c.MakesBy scope way fuel c' := by
  by_contra hnot
  -- The outcome would agree with each of two that have different results.
  have hagree : ∀ r, OutcomesAgree (c.outcome scope (call scope fuel) fuel) r := by
    intro r
    by_contra hr
    exact hnot ⟨r, fun hsame => hr (hsame.trans (h r))⟩
  have hnull := (hagree (.ok .null, c'.state)).result
  have hstop := (hagree (.error .outOfFuel, c'.state)).result
  cases hnull.symm.trans hstop

/-- A body makes a call of a bound method if it comes to what that call comes to, whoever runs it.
-/
theorem makesBy_of_outcome (h : ∀ callee, OutcomesAgree (c.outcome scope callee fuel)
    (callee c'.method c'.receiver c'.args c'.state)) : c.MakesBy scope .bound fuel c' := by
  refine makesBy_of_update fun r => (h _).trans (.of_eq ?_)
  exact if_pos ⟨rfl, .refl c'⟩

/-- The outcome of a call over the family is the same with callees that run alike. -/
theorem Over.outcome (hs : scope.Over P) (hk : scope.symbols.Respects K)
    (hc : callee.Alike scope K P callee') (hover : c.Over P) (hagrees : c.Agrees c')
    (hcatalogue : K c.state.catalogue c'.state.catalogue) (fuel : Nat) :
    SameOutcome K P (Value.Over P) (c.outcome scope callee fuel)
      (c'.outcome scope callee' fuel) := by
  unfold Call.outcome
  rw [← hagrees.method, ← hagrees.receiver, ← hagrees.args]
  exact alike_runBody hs hk hc fuel hover.method hover.receiver hover.args _ _
    ⟨hagrees.state, hcatalogue⟩ hover.state

/-- **What a body calls.** A body that is called over the family makes only calls over the family:
where it binds a method, of a method that is bound in the scope, and where it calls a delegate, of a
delegate that the heap has. -/
theorem Over.of_makesBy (hs : scope.Over P) (hover : c.Over P) {way : CallWay}
    (h : c.MakesBy scope way fuel c') : c'.Allowed scope P way := by
  by_contra hnot
  obtain ⟨r, hr⟩ := h
  have hk := scope.symbols.respects_eq
  have halike := (Callee.alike_call hs hk fuel).update hnot r
  exact hr (hover.outcome hs hk halike (.refl c) rfl fuel).agree

/-- A body that is called over the family makes only calls over the family. -/
theorem Over.of_makes (hs : scope.Over P) (hover : c.Over P) (h : c.Makes scope fuel c') :
    c'.Over P := by
  obtain ⟨way, hway⟩ := h
  have hallowed := hover.of_makesBy hs hway
  cases way with
  | bound => exact hallowed.1
  | delegate => exact hallowed.1

/-- Every call that occurs in a run over the family is over the family. -/
theorem Over.of_occurs (hs : scope.Over P) (hover : c.Over P) (h : c.Occurs scope fuel n c') :
    c'.Over P := by
  induction h with
  | self h => exact hover.of_agrees h
  | nested _ hmakes ih => exact ih.of_makes hs hmakes

/-- Every frame that a body comes to is over the family, and so is the state that it is in. -/
theorem Over.of_reaches (hs : scope.Over P) (hover : c.Over P) {f : Frame} {s : State}
    (h : c.Reaches scope fuel f s) : f.Over P ∧ s.Over P := by
  induction h with
  | @start d f s htarget hstart =>
    have hbegin := alike_start hs d hover.method.context (over_slots d hover.receiver hover.args)
      c.state c.state (.refl _) hover.state
    rw [hstart] at hbegin
    exact ⟨hbegin.holds rfl, hbegin.stateOver⟩
  | @next f f' s s' _ hround ih =>
    have hcallee := Callee.alike_call hs scope.symbols.respects_eq fuel
    have hnext := alike_round hs hcallee f ih.1 s s (.refl _) ih.2
    rw [hround] at hnext
    exact ⟨(hnext.holds rfl).2, hnext.stateOver⟩

end Call

end Hotswap
