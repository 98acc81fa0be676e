import Hotswap.Proofs.Machine.Run
import Hotswap.Proofs.Machine.Step
import Hotswap.Proofs.Table

/-!
# Bodies without problems do not fail for their structure

`Body.problems` never runs a body. It is sound for the machine nevertheless: a run of a descriptor
that stops because the body is empty, because control leaves the body or because an operand does not
suit its opcode stops at an offset where `Body.problems` lists just that
(`malformed_run_listed`). So a body without problems never fails for its structure, however long it
runs.

The invariant of a run is that control stands at an instruction of the body. One instruction keeps
it or stops with an error that is explained (`explained_of_stepError`), by the contract of `step`;
the run keeps it by induction on the number of instructions (`meets_loop`).

A descriptor can call methods that are malformed themselves, and their reports come out of the run
of the caller. `QuietRun` says that this does not happen in a run.
-/

namespace Hotswap

open FrameAction

/-! ## Problems at an offset -/

namespace Body

/-- The problems of the instruction at an offset are problems of the body there. -/
theorem mem_problems {b : Body} {o : UInt32} {i : Instruction} {kind : ProblemKind}
    (hi : b.instructions.get? o = some i) (hkind : kind ∈ b.instructionProblems i) :
    ⟨o, kind⟩ ∈ b.problems := by
  refine List.mem_append_right _ (List.mem_flatMap.2 ⟨(o, i), Table.get?_eq_some_iff.1 hi, ?_⟩)
  exact List.mem_map.2 ⟨kind, hkind, rfl⟩

/-- An operand that does not suit its opcode is listed. -/
theorem mem_problems_of_operand {b : Body} {o : UInt32} {i : Instruction}
    (hi : b.instructions.get? o = some i) (h : i.opcode.operandKind ≠ i.operand.kind) :
    ⟨o, .operandMismatch i.opcode.operandKind i.operand.kind⟩ ∈ b.problems := by
  refine mem_problems hi (List.mem_append_left _ (List.mem_append_left _ ?_))
  simp [operandProblems, h]

/-- A branch to an offset without an instruction is listed. -/
theorem mem_problems_of_target {b : Body} {o target : UInt32} {i : Instruction}
    (hi : b.instructions.get? o = some i) (ht : target ∈ i.operand.jumpTargets)
    (h : b.instructions.contains target = false) : ⟨o, .danglingTarget target⟩ ∈ b.problems := by
  refine mem_problems hi (List.mem_append_left _ (List.mem_append_right _ ?_))
  simp [targetProblems, ht, h]

/-- An instruction that names such an offset as its successor is listed. -/
theorem mem_problems_of_next {b : Body} {o next : UInt32} {i : Instruction}
    (hi : b.instructions.get? o = some i) (hterm : i.opcode.isTerminator = false)
    (hnext : i.next = some next) (h : b.instructions.contains next = false) :
    ⟨o, .danglingNext next⟩ ∈ b.problems := by
  refine mem_problems hi (List.mem_append_right _ ?_)
  simp [nextProblems, hterm, hnext, h]

/-- An instruction that has no successor and does not end the run is listed. -/
theorem mem_problems_of_end {b : Body} {o : UInt32} {i : Instruction}
    (hi : b.instructions.get? o = some i) (hterm : i.opcode.isTerminator = false)
    (hnext : i.next = none) : ⟨o, .fallsOffEnd⟩ ∈ b.problems := by
  refine mem_problems hi (List.mem_append_right _ ?_)
  simp [nextProblems, hterm, hnext]

/-- A body that starts somewhere has an instruction there. -/
theorem isSome_get?_of_entry {b : Body} {o : UInt32} (h : b.entry? = some o) :
    (b.instructions.get? o).isSome = true := by
  have hmem : o ∈ b.instructions.keys := List.mem_of_mem_head? h
  obtain ⟨e, he, rfl⟩ := List.mem_map.1 hmem
  rw [Table.get?_eq_some_iff.2 he]
  rfl

/-- A body that starts nowhere is empty, and that is a problem. -/
theorem mem_problems_of_noEntry {b : Body} (h : b.entry? = none) : ⟨0, .empty⟩ ∈ b.problems := by
  have hnil : b.instructions.entries = [] := by
    simpa [ entry?, Table.keys] using h
  simp [problems, Table.isEmpty, hnil]

end Body

/-! ## Errors of a run -/

/-- What a run of a descriptor may stop with: an ordinary error, or a report about the descriptor
that is not one of structure or that the problems of the body list. -/
inductive Explained (d : Descriptor) : Error → Prop
  | ordinary {e : Error} (h : e.Ordinary) : Explained d e
  | unstructural {o : UInt32} {reason : Malformation} (h : reason.isStructural = false) :
      Explained d (.malformedDescriptor d.name.render o reason)
  | listed {o : UInt32} {reason : Malformation} {kind : ProblemKind}
      (hkind : reason.problemKind? = some kind) (h : ⟨o, kind⟩ ∈ d.body.problems) :
      Explained d (.malformedDescriptor d.name.render o reason)

/-- What the contract of a step allows as its error is explained. -/
theorem explained_of_stepError {d : Descriptor} {o : UInt32} {i : Instruction} {e : Error}
    (hi : d.body.instructions.get? o = some i) (h : StepError d o i e) : Explained d e := by
  cases h with
  | ordinary h => exact .ordinary h
  | unstructural h => exact .unstructural h
  | operand h => exact .listed rfl (Body.mem_problems_of_operand hi h)

/-! ## Runs -/

/-- **The invariant of a run:** the frame runs the descriptor and stands at an instruction. -/
def AtInstruction (d : Descriptor) (f : Frame) : Prop :=
  f.descriptor = d ∧ (d.body.instructions.get? f.offset).isSome = true

section run

variable {scope : Scope} {callee : Callee} {d : Descriptor}

/-- Control enters an instruction, or the offset that it stands at explains why it cannot. -/
theorem meets_enter {f : Frame} {target : UInt32} {dangling : Malformation}
    (hd : f.descriptor = d)
    (h : d.body.instructions.contains target = false →
      Explained d (.malformedDescriptor d.name.render f.offset dangling)) :
    Machine.Meets (Explained d) (fun r => AtInstruction d r.2) (enter target dangling f) := by
  show Machine.Meets (Explained d) (fun r => AtInstruction d r.2)
    ((if f.descriptor.body.instructions.contains target then
      modify fun f => { f with offset := target } else malformed dangling : FrameAction Unit) f)
  rw [hd]
  split
  · rename_i hin
    intro s
    exact ⟨hd, hin⟩
  · rename_i hout
    intro s
    show Explained d (.malformedDescriptor f.descriptor.name.render f.offset dangling)
    rw [hd]
    exact h (by simpa using hout)

/-- Control passes to the next instruction, or the problems list why it cannot. -/
theorem meets_advance {f : Frame} {i : Instruction} (hd : f.descriptor = d)
    (hi : d.body.instructions.get? f.offset = some i) (hterm : i.opcode.isTerminator = false) :
    Machine.Meets (Explained d) (fun r => AtInstruction d r.2) (advance i f) := by
  unfold advance
  cases hnext : i.next with
  | some next =>
    exact meets_enter hd fun h => .listed rfl (Body.mem_problems_of_next hi hterm hnext h)
  | none =>
    intro s
    show Explained d (.malformedDescriptor f.descriptor.name.render f.offset .fallsOffEnd)
    rw [hd]
    exact .listed rfl (Body.mem_problems_of_end hi hterm hnext)

/-- **Every error of a run is explained**, from an instruction on and for any number of
instructions. The induction is on that number; the invariant is `AtInstruction`. -/
theorem meets_loop (hs : scope.symbols.OrdinaryAccessors) (hc : callee.Ordinary) (fuel : Nat)
    {f : Frame} (hf : AtInstruction d f) :
    Machine.Meets (Explained d) (fun _ => True) (loop scope callee fuel f) := by
  induction fuel generalizing f with
  | zero => exact fun _ => trivial
  | succ fuel ih =>
    obtain ⟨hd, hsome⟩ := hf
    obtain ⟨i, hi⟩ := Option.isSome_iff_exists.1 hsome
    rw [loop_succ fuel (hd ▸ hi)]
    have hstep := (inStep_step hs hc d f.offset i f hd rfl).conseq
      (fun e he => explained_of_stepError hi he) fun _ hr => hr
    refine hstep.bind fun r hr => ?_
    obtain ⟨flow, f'⟩ := r
    obtain ⟨hallowed, hd', ho'⟩ := hr
    have hi' : d.body.instructions.get? f'.offset = some i := by rw [ho']; exact hi
    cases flow with
    | next => exact (meets_advance hd' hi' hallowed).bind fun r hr => ih hr
    | jump target =>
      refine (meets_enter hd' fun h => ?_).bind fun r hr => ih hr
      exact .listed rfl (Body.mem_problems_of_target hi' hallowed h)
    | leave v => exact .pure trivial

/-- A frame starts at the entry of its descriptor, or does not start for want of arguments or for an
ordinary error. -/
theorem meets_start (context : GenericContext) (args : List Value) :
    Machine.Meets (Explained d)
      (fun f => f.descriptor = d ∧ f.offset = d.body.entry?.getD 0)
      (Frame.start scope d context args) := by
  have hlocal : ∀ t, (do
      scope.defaultValue (← Machine.ofExcept (context.close t)) : Machine Value).Ordinary :=
    fun t => (Machine.Meets.ofExcept (ordinary_close context t)).bind
      fun _ _ => ordinary_defaultValue scope _
  have hrest : Machine.Meets (Explained d)
      (fun f => f.descriptor = d ∧ f.offset = d.body.entry?.getD 0)
      (do
        let locals ← d.body.locals.mapM fun t => do
          scope.defaultValue (← Machine.ofExcept (context.close t))
        return ⟨d, context, args, locals, [], d.body.entry?.getD 0, false⟩ : Machine Frame) := by
    refine Machine.Meets.bind (Q := fun _ => True) ?_ fun _ _ => .pure ⟨rfl, rfl⟩
    exact (Machine.Meets.mapM hlocal d.body.locals).conseq (fun _ he => .ordinary he) fun _ h => h
  unfold Frame.start
  dsimp only
  split
  · exact (Machine.Meets.fail (.unstructural rfl)).bind (Q := fun _ => True) fun _ _ => hrest
  · exact hrest

/-- **Every error of a run is explained** if everything that is outside of the frame fails with
ordinary errors alone. -/
theorem meets_execute (hs : scope.symbols.OrdinaryAccessors) (hc : callee.Ordinary) (fuel : Nat)
    (context : GenericContext) (args : List Value) :
    Machine.Meets (Explained d) (fun _ => True) (execute scope callee fuel d context args) := by
  unfold execute
  refine (meets_start context args).bind fun f hf => ?_
  obtain ⟨hd, ho⟩ := hf
  have hrun : Machine.Meets (Explained d) (fun _ => True) (runFrame scope callee fuel f) := by
    show Machine.Meets (Explained d) (fun _ => True)
      ((if f.descriptor.body.entry?.isNone then malformed .emptyBody
        else loop scope callee fuel : FrameAction Value) f)
    rw [hd]
    cases hentry : d.body.entry? with
    | none =>
      rw [hentry] at ho
      intro s
      show Explained d (.malformedDescriptor f.descriptor.name.render f.offset .emptyBody)
      rw [hd, ho]
      exact .listed rfl (Body.mem_problems_of_noEntry hentry)
    | some entry =>
      rw [hentry] at ho
      refine meets_loop hs hc fuel ⟨hd, ?_⟩
      rw [ho]
      exact Body.isSome_get?_of_entry hentry
  exact hrun.bind fun _ _ => .pure trivial

end run

/-! ## Quiet runs -/

/-- The action on memory with the reports of malformed descriptors taken out. -/
def MemoryAction.muted {α : Type} (action : MemoryAction α) : MemoryAction α := fun memory =>
  match action memory with
  | (.ok a, memory') => (.ok a, memory')
  | (.error e, memory') => (.error (if e.isMalformed then .native "" else e), memory')

/-- The field with the reports of malformed descriptors taken out. -/
def Accessor.muted (a : Accessor) : Accessor where
  isStatic := a.isStatic
  get target := (a.get target).muted
  set? := a.set?.map fun write target v => (write target v).muted

/-- The symbols with the reports of malformed descriptors taken out of the fields. -/
def SymbolTable.muted (symbols : SymbolTable) : SymbolTable :=
  ⟨symbols.modules.map fun m => { m with fields := m.fields.map Accessor.muted }⟩

/-- The scope with the reports of malformed descriptors taken out of the fields of the host. -/
def Scope.muted (scope : Scope) : Scope := { scope with symbols := scope.symbols.muted }

/-- The computation with the reports of malformed descriptors taken out: one that makes a report
never comes back. -/
def Machine.muted {α : Type} (m : Machine α) : Machine α := fun s =>
  match m s with
  | (.error (.failed e), s') => (.error (if e.isMalformed then .outOfFuel else .failed e), s')
  | r => r

/-- The calls with the reports of malformed descriptors taken out. -/
def Callee.muted (callee : Callee) : Callee where
  method m receiver args := (callee m receiver args).muted
  delegate d args := (callee.delegate d args).muted

/-- The run of a descriptor in which no call and no field of the host reports a malformed
descriptor: taking such reports out changes nothing. A call or a field that did report one would
end the run with the report, and the run without reports ends otherwise. -/
def QuietRun (scope : Scope) (callee : Callee) (fuel : Nat) (d : Descriptor)
    (context : GenericContext) (args : List Value) (s : State) : Prop :=
  execute scope.muted callee.muted fuel d context args s =
    execute scope callee fuel d context args s

/-- Such an action makes no reports. -/
theorem MemoryAction.ordinary_muted {α : Type} (action : MemoryAction α) :
    MemoryAction.Ordinary action.muted := by
  intro memory
  unfold MemoryAction.muted
  rcases action memory with ⟨e | a, memory'⟩
  · show Error.Ordinary _
    split
    · rfl
    · rename_i h
      exact Bool.eq_false_iff.2 h
  · trivial

/-- Such a field makes no reports. -/
theorem Accessor.ordinary_muted (a : Accessor) : a.muted.Ordinary where
  get target := MemoryAction.ordinary_muted _
  set write hwrite target v := by
    obtain ⟨write', -, rfl⟩ := Option.map_eq_some_iff.1 hwrite
    exact MemoryAction.ordinary_muted _

/-- A field is found where it was, without its reports. -/
theorem SymbolTable.findField?_muted (symbols : SymbolTable) (key : String) :
    symbols.muted.findField? key = (symbols.findField? key).map Accessor.muted := by
  unfold findField? muted
  rw [List.findSome?_map, List.map_findSome?]
  congr 1
  funext m
  exact Table.get?_map Accessor.muted m.fields key

/-- So no field of the symbols makes reports. -/
theorem SymbolTable.ordinaryAccessors_muted (symbols : SymbolTable) :
    symbols.muted.OrdinaryAccessors := by
  intro key a ha
  rw [findField?_muted] at ha
  obtain ⟨a', -, rfl⟩ := Option.map_eq_some_iff.1 ha
  exact a'.ordinary_muted

/-- Such a computation makes no reports. -/
theorem Machine.ordinary_muted {α : Type} (m : Machine α) : m.muted.Ordinary := by
  intro s
  unfold Machine.muted
  rcases m s with ⟨(e | _) | a, s'⟩
  · show Stop.Within _ (if e.isMalformed then Stop.outOfFuel else Stop.failed e)
    split
    · trivial
    · rename_i h
      exact Bool.eq_false_iff.2 h
  · trivial
  · trivial

/-- Such calls make no reports. -/
theorem Callee.ordinary_muted (callee : Callee) : callee.muted.Ordinary where
  method m receiver args := (callee m receiver args).ordinary_muted
  delegate d args := (callee.delegate d args).ordinary_muted

/-- An action that makes no reports is left as it is. -/
theorem MemoryAction.muted_eq {α : Type} {action : MemoryAction α}
    (h : MemoryAction.Ordinary action) : action.muted = action := by
  funext memory
  have hm := h memory
  unfold MemoryAction.muted
  rcases hr : action memory with ⟨e | a, memory'⟩
  · rw [hr] at hm
    have he : e.isMalformed = false := hm
    simp [he]
  · rfl

/-- A field that makes no reports is left as it is. -/
theorem Accessor.muted_eq {a : Accessor} (h : a.Ordinary) : a.muted = a := by
  obtain ⟨isStatic, get, set?⟩ := a
  have hget : (fun target => (get target).muted) = get :=
    funext fun target => MemoryAction.muted_eq (h.get target)
  have hset : (set?.map fun write target v => (write target v).muted) = set? := by
    cases set? with
    | none => rfl
    | some write =>
      exact congrArg some (funext fun target => funext fun v =>
        MemoryAction.muted_eq (h.set write rfl target v))
  simp only [muted, hget, hset]

/-- A computation that makes no reports is left as it is. -/
theorem Machine.muted_eq {α : Type} {m : Machine α} (h : m.Ordinary) : m.muted = m := by
  funext s
  have hs := h s
  unfold Machine.muted
  rcases hr : m s with ⟨(e | _) | a, s'⟩
  · rw [hr] at hs
    have he : e.isMalformed = false := hs
    simp [he]
  · rfl
  · rfl

/-- Calls that make no reports are left as they are. -/
theorem Callee.muted_eq {callee : Callee} (h : callee.Ordinary) : callee.muted = callee := by
  obtain ⟨method, delegate⟩ := callee
  have hmethod : (fun m receiver args => (method m receiver args).muted) = method :=
    funext fun m => funext fun receiver => funext fun args =>
      Machine.muted_eq (h.method m receiver args)
  have hdelegate : (fun d args => (delegate d args).muted) = delegate :=
    funext fun d => funext fun args => Machine.muted_eq (h.delegate d args)
  simp only [muted, hmethod, hdelegate]

/-- A run is quiet if no method and no field of the host ever reports a malformed descriptor. -/
theorem quietRun_of_ordinary {scope : Scope} {callee : Callee} (hc : callee.Ordinary)
    (hs : ∀ m ∈ scope.symbols.modules, ∀ e ∈ m.fields.entries, e.2.Ordinary) (fuel : Nat)
    (d : Descriptor) (context : GenericContext) (args : List Value) (s : State) :
    QuietRun scope callee fuel d context args s := by
  have hfields : ∀ m ∈ scope.symbols.modules, m.fields.map Accessor.muted = m.fields := by
    intro m hm
    have heach : ∀ e ∈ m.fields.entries, (e.1, e.2.muted) = id e :=
      fun e he => Prod.ext rfl (Accessor.muted_eq (hs m hm e he))
    exact Table.ext ((List.map_congr_left heach).trans (List.map_id _))
  have hmodules : (scope.symbols.modules.map fun m =>
      { m with fields := m.fields.map Accessor.muted }) = scope.symbols.modules := by
    have heach : ∀ m ∈ scope.symbols.modules,
        { m with fields := m.fields.map Accessor.muted } = id m :=
      fun m hm => by rw [hfields m hm]; rfl
    exact (List.map_congr_left heach).trans (List.map_id _)
  have hscope : scope.muted = scope := by
    unfold Scope.muted SymbolTable.muted
    rw [hmodules]
  unfold QuietRun
  rw [hscope, Callee.muted_eq hc]

/-- **Problems are sound for runs.** Suppose a run of a descriptor in which no call reports a
malformed descriptor stops because the descriptor is malformed at an offset. Then it is never for
want of an instruction to stand at; if it is for a reason of structure the problems of the body list
that reason at that offset; and so a body without problems does not stop for its structure. -/
theorem malformed_run_listed {scope : Scope} {callee : Callee} {fuel : Nat} {d : Descriptor}
    {context : GenericContext} {args : List Value} {s s' : State} {name : String} {o : UInt32}
    {reason : Malformation} (hquiet : QuietRun scope callee fuel d context args s)
    (hrun : execute scope callee fuel d context args s =
      (.error (.failed (.malformedDescriptor name o reason)), s')) :
    name = d.name.render ∧ reason ≠ .noInstruction ∧
      (∀ kind, reason.problemKind? = some kind → ⟨o, kind⟩ ∈ d.body.problems) ∧
      (d.body.problems = [] → reason.isStructural = false) := by
  have hmeets : Machine.Meets (Explained d) (fun _ => True)
      (execute scope.muted callee.muted fuel d context args) :=
    meets_execute scope.symbols.ordinaryAccessors_muted callee.ordinary_muted fuel context args
  have hexplained := hmeets s
  rw [show execute scope.muted callee.muted fuel d context args s = _ from hquiet, hrun]
    at hexplained
  change Explained d (.malformedDescriptor name o reason) at hexplained
  cases hexplained with
  | ordinary h => cases h
  | unstructural h =>
    have hnone : reason.problemKind? = none := by
      simp only [Malformation.isStructural, Bool.or_eq_false_iff] at h
      simpa using h.2
    refine ⟨rfl, ?_, fun kind hkind => ?_, fun _ => h⟩
    · rintro rfl
      cases h
    · rw [hnone] at hkind
      cases hkind
  | listed hkind h =>
    refine ⟨rfl, ?_, fun kind' hkind' => ?_, fun hnil => ?_⟩
    · rintro rfl
      cases hkind
    · rw [hkind] at hkind'
      cases hkind'
      exact h
    · rw [hnil] at h
      cases h

/-- A method that branches on its argument to an offset where there is no instruction. -/
def strayBranch : Descriptor where
  name := ⟨.named "T" [], "M", [], [.named "System.Int32" []]⟩
  isStatic := true
  parameters := [.named "System.Int32" []]
  returnType := .named "System.Void" []
  body := {
    maxStack := 1
    locals := []
    instructions := .ofList [
      (0, ⟨.ldarg0, .none, some 1⟩), (1, ⟨.brtrueS, .target 9, some 3⟩), (3, ⟨.ret, .none, none⟩)] }

/-- The stray branch is reported when it is taken, and listed. -/
theorem strayBranch_listed :
    ⟨1, .danglingTarget 9⟩ ∈ strayBranch.body.problems := by
  have hrun : execute ⟨{}, ∅⟩ (call ⟨{}, ∅⟩ 0) 5 strayBranch {} [.int32 1] {} =
      (.error (.failed (.malformedDescriptor strayBranch.name.render 1 (.danglingTarget 9))), {}) :=
    rfl
  have hcallee : (call ⟨{}, ∅⟩ 0).Ordinary := ⟨fun _ _ _ => .outOfFuel, fun _ _ => .outOfFuel⟩
  have hquiet : QuietRun ⟨{}, ∅⟩ (call ⟨{}, ∅⟩ 0) 5 strayBranch {} [.int32 1] {} :=
    quietRun_of_ordinary hcallee (fun m hm => absurd hm List.not_mem_nil) ..
  exact (malformed_run_listed hquiet hrun).2.2.1 _ rfl

end Hotswap
