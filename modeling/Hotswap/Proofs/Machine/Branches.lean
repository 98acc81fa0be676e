import Hotswap.Proofs.Machine.Comparisons

/-!
# Branches that compare

A branch that compares two operands does in one instruction what a comparison and a branch on its
truth value do in two. `comparedBranch` is the pair: the comparison, control at the offset between,
then the branch. It goes where the one instruction goes and fails with the error with which that one
fails (`comparedBranch_eq`), whatever the two operands are, as long as both ask one question of
them.

`fusedOn` says which do. One pair does not: the comparison for greater or unordered takes null
beside a reference and asks whether the reference is there, and the branch of that name does not
take null.
-/

namespace Hotswap

open FrameAction Step

/-! ## Pairs of instructions -/

/-- The branches on a truth value, and the one on which they are taken. -/
inductive Opcode.Asks : Opcode → Bool → Prop
  /-- Taken on true. -/
  | brtrue : Asks .brtrue true
  /-- The short form. -/
  | brtrueS : Asks .brtrueS true
  /-- Taken on false. -/
  | brfalse : Asks .brfalse false
  /-- The short form. -/
  | brfalseS : Asks .brfalseS false

/-- A branch that compares, the comparison alone, and the truth value on which the branch is
taken. -/
inductive Opcode.Fuses : Opcode → Opcode → Bool → Prop
  /-- If the operands are the same. -/
  | beq : Fuses .beq .ceq true
  /-- The short form. -/
  | beqS : Fuses .beqS .ceq true
  /-- If they are not. -/
  | bneUn : Fuses .bneUn .ceq false
  /-- The short form. -/
  | bneUnS : Fuses .bneUnS .ceq false
  /-- If the first one is greater. -/
  | bgt : Fuses .bgt .cgt true
  /-- The short form. -/
  | bgtS : Fuses .bgtS .cgt true
  /-- If the first one is less. -/
  | blt : Fuses .blt .clt true
  /-- The short form. -/
  | bltS : Fuses .bltS .clt true
  /-- If the first one is less or they have no order. -/
  | bltUn : Fuses .bltUn .cltUn true
  /-- The short form. -/
  | bltUnS : Fuses .bltUnS .cltUn true

/-- The two forms of the branch that is taken if the first operand is greater or they have no
order. -/
inductive Opcode.IsGreaterUnordered : Opcode → Prop
  /-- The long form. -/
  | bgtUn : IsGreaterUnordered .bgtUn
  /-- The short form. -/
  | bgtUnS : IsGreaterUnordered .bgtUnS

/-- Control comes to an offset. -/
def arrive (at' : UInt32) : FrameAction Unit := modify fun f => { f with offset := at' }

/-- A comparison, then a branch on its truth value at another offset. -/
def comparedBranch (scope : Scope) (callee : Callee) (compare branch : Instruction)
    (between : UInt32) : FrameAction Flow := do
  discard (step scope callee compare)
  arrive between
  step scope callee branch

/-! ## What they do -/

section

variable {scope : Scope} {callee : Callee} {f : Frame} {a b : Value} {s : State}
  {fused compare branch : Opcode} {test test' : Value → Value → Except Error Bool} {wanted : Bool}
  {target between : UInt32} {operand : Operand} {next next' : Option UInt32}

/-- Where control goes from a branch. -/
def landing (target : UInt32) (taken : Bool) : Flow := if taken then .jump target else .next

/-- A branch with a target lands there if it is taken. -/
theorem branch_target {i : Instruction} (hi : i.operand = .target target) (taken : Bool) :
    Step.branch i taken = pure (landing target taken) := by
  have htarget : targetOperand i = pure target := by
    unfold targetOperand
    rw [hi]
  unfold Step.branch landing
  rw [htarget]
  cases taken <;> rfl

/-- A branch that compares goes by what the comparison says, and fails if that fails. -/
theorem step_fused_apply (hop : fused.action = .transfer (.branchOn test)) :
    step scope callee ⟨fused, .target target, next⟩ ((f.pushed a).pushed b) s =
      match test a b with
      | .ok taken => (.ok (landing target taken, f), s)
      | .error e => (.error (.failed e), s) := by
  unfold step
  rw [hop]
  show (ofExcept (test a b) >>= Step.branch ⟨fused, .target target, next⟩ : FrameAction Flow) f s =
    _
  rw [FrameAction.bind_apply]
  cases test a b with
  | error e => rfl
  | ok taken =>
    show Step.branch ⟨fused, .target target, next⟩ taken f s = _
    rw [branch_target rfl]
    rfl

/-- A comparison pushes what it says, and fails if it fails. -/
theorem step_compare_apply (hop : compare.action = .effect (.compare test)) :
    step scope callee ⟨compare, operand, next⟩ ((f.pushed a).pushed b) s =
      match test a b with
      | .ok truth => (.ok (.next, f.pushed (flagValue truth)), s)
      | .error e => (.error (.failed e), s) := by
  cases htest : test a b with
  | ok truth => exact step_compare hop htest
  | error e =>
    unfold step
    rw [hop]
    show ((ofExcept (test a b) >>= fun t => push (flagValue t)) >>= fun _ => pure .next :
      FrameAction Flow) f s = _
    rw [htest]
    rfl

/-- A branch on a truth value asks whether it is the one wanted. -/
theorem step_asks (hasks : branch.Asks wanted) (truth : Bool) :
    step scope callee ⟨branch, .target target, next⟩ (f.pushed (flagValue truth)) s =
      (.ok (landing target (truth == wanted), f), s) := by
  have hstep : step scope callee ⟨branch, .target target, next⟩ (f.pushed (flagValue truth)) =
      Step.branch ⟨branch, .target target, next⟩ (truth == wanted) f := by
    cases hasks <;> cases truth <;> rfl
  rw [hstep, branch_target rfl]
  rfl

/-- The two instructions land where the comparison says, and fail if it fails. -/
theorem comparedBranch_apply (hop : compare.action = .effect (.compare test))
    (hasks : branch.Asks wanted) :
    comparedBranch scope callee ⟨compare, operand, next⟩ ⟨branch, .target target, next'⟩ between
        ((f.pushed a).pushed b) s =
      match test a b with
      | .ok truth => (.ok (landing target (truth == wanted), { f with offset := between }), s)
      | .error e => (.error (.failed e), s) := by
  show ((step scope callee ⟨compare, operand, next⟩ >>= fun _ => pure ()) >>= fun _ =>
    arrive between >>= fun _ => step scope callee ⟨branch, .target target, next'⟩ :
      FrameAction Flow) ((f.pushed a).pushed b) s = _
  rw [bind_assoc, FrameAction.bind_apply, step_compare_apply hop]
  cases test a b with
  | error e => rfl
  | ok truth =>
    show step scope callee ⟨branch, .target target, next'⟩
      (({ f with offset := between } : Frame).pushed (flagValue truth)) s = _
    rw [step_asks hasks]

/-- **A comparison and a branch** that ask the question of a branch that compares go where it goes,
and fail as it fails. -/
theorem comparedBranch_eq (hfused : fused.action = .transfer (.branchOn test'))
    (hcompare : compare.action = .effect (.compare test)) (hasks : branch.Asks wanted)
    (h : test' a b = (test a b).map (· == wanted)) :
    comparedBranch scope callee ⟨compare, operand, next⟩ ⟨branch, .target target, next'⟩ between
        ((f.pushed a).pushed b) s =
      (do
        let flow ← step scope callee ⟨fused, .target target, next'⟩
        arrive between
        return flow : FrameAction Flow) ((f.pushed a).pushed b) s := by
  rw [comparedBranch_apply hcompare hasks, FrameAction.bind_apply, step_fused_apply hfused, h]
  cases test a b <;> rfl

/-- Asking whether a truth value is true changes nothing. -/
theorem map_beq_true (r : Except Error Bool) : r.map (· == true) = r := by
  cases r with
  | error e => rfl
  | ok truth => exact congrArg Except.ok (beq_true truth)

/-- A branch that compares asks the question of its comparison. -/
theorem Opcode.Fuses.tests (h : fused.Fuses compare wanted) :
    ∃ test test', fused.action = .transfer (.branchOn test') ∧
      compare.action = .effect (.compare test) ∧
      ∀ a b, test' a b = (test a b).map (· == wanted) := by
  have hdifferent (a b : Value) : different a b = (same a b).map (· == false) := by
    unfold different
    congr 1
    funext truth
    exact (beq_false truth).symm
  cases h with
  | beq | beqS => exact ⟨same, _, rfl, rfl, fun a b => (map_beq_true _).symm⟩
  | bneUn | bneUnS => exact ⟨same, _, rfl, rfl, hdifferent⟩
  | bgt | bgtS => exact ⟨related .greater false, _, rfl, rfl, fun a b => (map_beq_true _).symm⟩
  | blt | bltS => exact ⟨related .less false, _, rfl, rfl, fun a b => (map_beq_true _).symm⟩
  | bltUn | bltUnS => exact ⟨related .less true, _, rfl, rfl, fun a b => (map_beq_true _).symm⟩

/-! ## References -/

/-- A reference is not a number. -/
theorem number_of_isReference {v : Value} (h : v.isReference = true) :
    v.toInt64? = none ∧ v.toFloat? = none := by
  cases v <;> first
    | exact ⟨rfl, rfl⟩
    | cases h

/-- Where null decides, both operands are references, and the question is whether they are the same
one. -/
theorem isReference_of_nullTest? {equal : Bool} (h : nullTest? a b = some equal) :
    a.isReference = true ∧ b.isReference = true ∧ equal = a.isSame b := by
  unfold nullTest? at h
  split at h
  · rename_i hnull
    rw [Bool.and_eq_true, Bool.and_eq_true] at hnull
    exact ⟨hnull.1.2, hnull.2, (Option.some.inj h).symm⟩
  · cases h

/-- References have no order. -/
theorem related_of_isReference (ha : a.isReference = true) (r : Relation) (unordered : Bool) :
    related r unordered a b = .error (mismatch r.symbol a b) := by
  obtain ⟨hint, hfloat⟩ := number_of_isReference ha
  unfold related compareValues
  rw [hint, hfloat]
  rfl

/-! ## Greater or unordered -/

/-- Both forms of the branch test the same relation. -/
theorem Opcode.IsGreaterUnordered.action_eq (h : fused.IsGreaterUnordered) :
    fused.action = .transfer (.branchOn (related .greater true)) := by
  cases h <;> rfl

/-- Beside null the branch fails. -/
theorem step_greaterUnordered_of_nullTest? (h : fused.IsGreaterUnordered) {equal : Bool}
    (hnull : nullTest? a b = some equal) :
    step scope callee ⟨fused, .target target, next⟩ ((f.pushed a).pushed b) s =
      (.error (.failed (mismatch ">" a b)), s) := by
  rw [step_fused_apply h.action_eq, related_of_isReference (isReference_of_nullTest? hnull).1]
  rfl

/-- Beside null the comparison asks whether the two differ. -/
theorem comparedBranch_cgtUn_of_nullTest? (hasks : branch.Asks true) {equal : Bool}
    (hnull : nullTest? a b = some equal) :
    comparedBranch scope callee ⟨.cgtUn, operand, next⟩ ⟨branch, .target target, next'⟩ between
        ((f.pushed a).pushed b) s =
      (.ok (landing target (!a.isSame b), { f with offset := between }), s) := by
  have hop : Opcode.cgtUn.action = .effect (.compare greaterOrUnordered) := rfl
  rw [comparedBranch_apply hop hasks]
  unfold greaterOrUnordered
  rw [hnull, ← (isReference_of_nullTest? hnull).2.2]
  dsimp only
  rw [beq_true]

/-! ## The branches -/

/-- What branches that compare do with two operands, beside a comparison and a branch. -/
structure FusedOn (scope : Scope) (callee : Callee) (f : Frame) (s : State) (a b : Value) :
    Prop where
  /-- A branch that compares does what the comparison and a branch on its truth value do. -/
  agrees {fused compare branch : Opcode} {wanted : Bool} (h : fused.Fuses compare wanted)
      (hasks : branch.Asks wanted) (target between : UInt32) (operand : Operand)
      (next next' : Option UInt32) :
    comparedBranch scope callee ⟨compare, operand, next⟩ ⟨branch, .target target, next'⟩ between
        ((f.pushed a).pushed b) s =
      (do
        let flow ← step scope callee ⟨fused, .target target, next'⟩
        arrive between
        return flow : FrameAction Flow) ((f.pushed a).pushed b) s
  /-- So does the one for greater or unordered exactly if there is no null beside a reference. -/
  agrees_unordered_iff {fused branch : Opcode} (h : fused.IsGreaterUnordered)
      (hasks : branch.Asks true) (target between : UInt32) (operand : Operand)
      (next next' : Option UInt32) :
    comparedBranch scope callee ⟨.cgtUn, operand, next⟩ ⟨branch, .target target, next'⟩ between
        ((f.pushed a).pushed b) s =
      (do
        let flow ← step scope callee ⟨fused, .target target, next'⟩
        arrive between
        return flow : FrameAction Flow) ((f.pushed a).pushed b) s ↔
    nullTest? a b = none
  /-- Beside null the branch fails. -/
  fails {fused : Opcode} (h : fused.IsGreaterUnordered) {equal : Bool}
      (hnull : nullTest? a b = some equal) (target : UInt32) (next : Option UInt32) :
    step scope callee ⟨fused, .target target, next⟩ ((f.pushed a).pushed b) s =
      (.error (.failed (mismatch ">" a b)), s)
  /-- There the comparison and a branch on its truth value branch if one of the two is not null. -/
  branches {branch : Opcode} (hasks : branch.Asks true) {equal : Bool}
      (hnull : nullTest? a b = some equal) (target between : UInt32) (operand : Operand)
      (next next' : Option UInt32) :
    comparedBranch scope callee ⟨.cgtUn, operand, next⟩ ⟨branch, .target target, next'⟩ between
        ((f.pushed a).pushed b) s =
      (.ok (landing target (!a.isSame b), { f with offset := between }), s)

/-- **A branch that compares** does what the comparison and a branch do, with one exception: the
branch for greater or unordered fails beside null, where the comparison asks whether a reference is
there. -/
theorem fusedOn : FusedOn scope callee f s a b := by
  constructor
  case agrees =>
    intro fused compare branch wanted h hasks target between operand next next'
    obtain ⟨test, test', hfused, hcompare, htest⟩ := h.tests
    exact comparedBranch_eq hfused hcompare hasks (htest a b)
  case agrees_unordered_iff =>
    intro fused branch h hasks target between operand next next'
    cases hnull : nullTest? a b with
    | some equal =>
      rw [comparedBranch_cgtUn_of_nullTest? hasks hnull, FrameAction.bind_apply,
        step_greaterUnordered_of_nullTest? h hnull]
      exact iff_of_false (fun heq => nomatch congrArg Prod.fst heq) nofun
    | none =>
      refine iff_of_true (comparedBranch_eq h.action_eq rfl hasks ?_) rfl
      unfold greaterOrUnordered
      rw [hnull, map_beq_true]
  case fails =>
    intro fused h equal hnull target next
    exact step_greaterUnordered_of_nullTest? h hnull
  case branches =>
    intro branch hasks equal hnull target between operand next next'
    exact comparedBranch_cgtUn_of_nullTest? hasks hnull

end

/-- A string is there and no null: the comparison and the branch go to the target, where the one
instruction fails. -/
theorem fusedOn_string :
    nullTest? (.string "x") .null = some false ∧
    comparedBranch unitScope (call unitScope 0) ⟨.cgtUn, .none, none⟩ ⟨.brtrue, .target 6, none⟩ 3
        ((emptyFrame.pushed (.string "x")).pushed .null) {} =
      (.ok (.jump 6, { emptyFrame with offset := 3 }), {}) ∧
    step unitScope (call unitScope 0) ⟨.bgtUn, .target 6, none⟩
        ((emptyFrame.pushed (.string "x")).pushed .null) {} =
      (.error (.failed (mismatch ">" (.string "x") .null)), {}) := by
  have hon : FusedOn unitScope (call unitScope 0) emptyFrame {} (.string "x") .null := fusedOn
  have hnull : nullTest? (.string "x") .null = some false := rfl
  exact ⟨hnull, hon.branches .brtrue hnull 6 3 .none none none, hon.fails .bgtUn hnull 6 none⟩

end Hotswap
