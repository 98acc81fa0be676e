import Hotswap.Proofs.Arithmetic.Conversions
import Hotswap.Proofs.Machine.Fields

/-!
# Comparisons of integers

The instructions that compare two integers and push a truth value or take a branch. Integers are
compared as what they are read as, with their signs (`related_of_reads`), and the instructions for
the order without signs compare them in the same way: they differ from the others only for operands
that have no order, and two integers have one.

`unsignedOrderOn` puts this beside the order of the patterns of bits, which is what division without
signs goes by. The two orders are the same for words of one sign, and opposite for words of two
(`on_toInt_iff_on_toNat_iff`).
-/

namespace Hotswap

open FrameAction

variable {a b : Value} {w : Nat} {x y : BitVec w} {m n : Int}

/-! ## Orders of integers -/

namespace Relation

/-- Two integers stand in an order. -/
def On : Relation → Int → Int → Prop
  | atLeast, m, n => n ≤ m
  | greater, m, n => n < m
  | atMost, m, n => m ≤ n
  | less, m, n => m < n

instance (r : Relation) (m n : Int) : Decidable (r.On m n) :=
  match r with
  | atLeast => inferInstanceAs (Decidable (n ≤ m))
  | greater => inferInstanceAs (Decidable (n < m))
  | atMost => inferInstanceAs (Decidable (m ≤ n))
  | less => inferInstanceAs (Decidable (m < n))

/-- The test of an ordering is the order of the integers. -/
theorem ofOrdering_compare (r : Relation) (m n : Int) :
    r.ofOrdering (compare m n) = decide (r.On m n) := by
  rw [Bool.eq_iff_iff, decide_eq_true_iff]
  cases r with
  | atLeast => exact Ordering.isGE_iff_ne_lt.trans compare_ge_iff_ge
  | greater => exact Ordering.isGT_iff_eq_gt.trans compare_gt_iff_gt
  | atMost => exact Ordering.isLE_iff_ne_gt.trans compare_le_iff_le
  | less => exact Ordering.isLT_iff_eq_lt.trans compare_lt_iff_lt

end Relation

/-- The sign does not matter to the order of two words exactly if they share it. -/
theorem toInt_lt_iff_toNat_lt_iff (x y : BitVec w) :
    (x.toInt < y.toInt ↔ x.toNat < y.toNat) ↔ x.msb = y.msb := by
  rw [← BitVec.slt_iff_toInt_lt, ← BitVec.lt_def, ← BitVec.ult_iff_lt, BitVec.slt_eq_ult]
  cases x.msb <;> cases y.msb <;> cases x.ult y <;> decide

/-- The order with signs is the order of the patterns exactly for words of one sign. -/
theorem on_toInt_iff_on_toNat_iff (r : Relation) (x y : BitVec w) :
    (r.On x.toInt y.toInt ↔ r.On x.toNat y.toNat) ↔ x.msb = y.msb := by
  have hless := toInt_lt_iff_toNat_lt_iff x y
  have hgreater := toInt_lt_iff_toNat_lt_iff y x
  rw [← Int.ofNat_lt] at hless hgreater
  cases r with
  | less => exact hless
  | greater => exact hgreater.trans eq_comm
  | atLeast => exact (iff_congr Int.not_lt.symm Int.not_lt.symm).trans (not_iff_not.trans hless)
  | atMost =>
    exact (iff_congr Int.not_lt.symm Int.not_lt.symm).trans
      (not_iff_not.trans (hgreater.trans eq_comm))

/-! ## What is compared -/

/-- Integers and truth values are compared as what they are read as. -/
theorem compareValues_of_reads (ha : a.Reads m) (hb : b.Reads n) (operator : String) :
    compareValues operator a b = .ok (some (compare m n)) := by
  obtain ⟨k, hk, rfl⟩ := ha.toInt64?
  obtain ⟨l, hl, rfl⟩ := hb.toInt64?
  unfold compareValues
  rw [hk, hl]

/-- A relation of two values is the order of the integers that they are read as. -/
theorem related_of_reads (ha : a.Reads m) (hb : b.Reads n) (r : Relation) (unordered : Bool) :
    related r unordered a b = .ok (decide (r.On m n)) := by
  unfold related
  rw [compareValues_of_reads ha hb, ← r.ofOrdering_compare]
  rfl

/-- An integer is not a reference that could be compared with null. -/
theorem greaterOrUnordered_of_reads (ha : a.Reads m) (hb : b.Reads n) :
    greaterOrUnordered a b = .ok (decide (Relation.greater.On m n)) := by
  have hnull : nullTest? a b = none := by
    cases ha <;> cases hb <;> rfl
  unfold greaterOrUnordered
  rw [hnull]
  exact related_of_reads ha hb .greater true

/-- Two integers of one width are operands as they are. -/
theorem operands_of_isWord (ha : a.IsWord w x) (hb : b.IsWord w y) : Operands a b w x y := by
  cases ha with
  | int32 k =>
    cases hb with
    | int32 l => exact ⟨_, rfl, .int32 k l⟩
  | int64 k =>
    cases hb with
    | int64 l => exact ⟨_, rfl, .int64 k l⟩

/-! ## The instructions -/

section instructions

variable {scope : Scope} {callee : Callee} {f : Frame} {s : State} {i : Instruction}

/-- A comparison pushes its truth value as a flag. -/
theorem step_compare {test : Value → Value → Except Error Bool} {taken : Bool}
    (hop : i.opcode.action = .effect (.compare test)) (h : test a b = .ok taken) :
    step scope callee i ((f.pushed a).pushed b) s =
      (.ok (.next, f.pushed (Step.flagValue taken)), s) := by
  unfold step
  rw [hop]
  show ((ofExcept (test a b) >>= fun t => push (Step.flagValue t)) >>= fun _ => pure .next :
    FrameAction Flow) f s = _
  rw [h]
  rfl

/-- A branch that compares goes to its target or on. -/
theorem step_branchOn {test : Value → Value → Except Error Bool} {taken : Prop} [Decidable taken]
    {target : UInt32} (hop : i.opcode.action = .transfer (.branchOn test))
    (hi : i.operand = .target target) (h : test a b = .ok (decide taken)) :
    step scope callee i ((f.pushed a).pushed b) s =
      (.ok (if taken then .jump target else .next, f), s) := by
  have htarget : targetOperand i = pure target := by
    unfold targetOperand
    rw [hi]
  unfold step
  rw [hop]
  show (ofExcept (test a b) >>= Step.branch i : FrameAction Flow) f s = _
  rw [h, ofExcept_ok, pure_bind]
  unfold Step.branch
  rw [htarget]
  by_cases htaken : taken
  · rw [decide_eq_true htaken, if_pos htaken]
    rfl
  · rw [decide_eq_false htaken, if_neg htaken]
    rfl

/-- An operator pushes its result. -/
theorem step_binary {operation : Value → Value → Except Error Value} {v : Value}
    (hop : i.opcode.action = .effect (.binary operation)) (h : operation a b = .ok v) :
    step scope callee i ((f.pushed a).pushed b) s = (.ok (.next, f.pushed v), s) := by
  unfold step
  rw [hop]
  show (perform scope callee i (.binary operation) >>= fun _ => pure .next : FrameAction Flow)
    ((f.pushed a).pushed b) s = _
  rw [FrameAction.bind_apply, perform_binary, h]
  rfl

/-! ## The order without signs -/

/-- The instructions that push whether two operands stand in an order without signs. -/
inductive Opcode.PushesUnsigned : Opcode → Relation → Prop
  /-- Whether the first one is greater. -/
  | cgtUn : PushesUnsigned .cgtUn .greater
  /-- Whether the first one is less. -/
  | cltUn : PushesUnsigned .cltUn .less

/-- The instructions that take a branch if two operands stand in an order without signs. -/
inductive Opcode.BranchesUnsigned : Opcode → Relation → Prop
  /-- If the first one is not less. -/
  | bgeUn : BranchesUnsigned .bgeUn .atLeast
  /-- The short form. -/
  | bgeUnS : BranchesUnsigned .bgeUnS .atLeast
  /-- If the first one is greater. -/
  | bgtUn : BranchesUnsigned .bgtUn .greater
  /-- The short form. -/
  | bgtUnS : BranchesUnsigned .bgtUnS .greater
  /-- If the first one is not greater. -/
  | bleUn : BranchesUnsigned .bleUn .atMost
  /-- The short form. -/
  | bleUnS : BranchesUnsigned .bleUnS .atMost
  /-- If the first one is less. -/
  | bltUn : BranchesUnsigned .bltUn .less
  /-- The short form. -/
  | bltUnS : BranchesUnsigned .bltUnS .less

/-- What the instructions for the order without signs do with two integers of one width, in words
`x` and `y`. -/
structure UnsignedOrderOn (scope : Scope) (callee : Callee) (f : Frame) (s : State) (a b : Value)
    (x y : BitVec w) : Prop where
  /-- What is pushed tells the order of the integers, with their signs. -/
  push {op : Opcode} {r : Relation} (h : op.PushesUnsigned r) (operand : Operand)
      (next : Option UInt32) :
    step scope callee ⟨op, operand, next⟩ ((f.pushed a).pushed b) s =
      (.ok (.next, f.pushed (Step.flagValue (r.On x.toInt y.toInt))), s)
  /-- The branch is taken by the order of the integers, with their signs. -/
  branch {op : Opcode} {r : Relation} (h : op.BranchesUnsigned r) (target : UInt32)
      (next : Option UInt32) :
    step scope callee ⟨op, .target target, next⟩ ((f.pushed a).pushed b) s =
      (.ok (if r.On x.toInt y.toInt then .jump target else .next, f), s)
  /-- That is the order of the patterns exactly if the signs are the same. -/
  unsigned_iff (r : Relation) : (r.On x.toInt y.toInt ↔ r.On x.toNat y.toNat) ↔ x.msb = y.msb
  /-- Division without signs goes by the patterns: the quotient is zero if the first one is less. -/
  quotient (hy : y ≠ 0) (operand : Operand) (next : Option UInt32) :
    ∃ v q, step scope callee ⟨.divUn, operand, next⟩ ((f.pushed a).pushed b) s =
        (.ok (.next, f.pushed v), s) ∧
      v.IsWord w q ∧ (q = 0 ↔ x.toNat < y.toNat)

/-- **The instructions for the order without signs** compare two integers with their signs. For
integers of one sign that is the order without, which division goes by, and for integers of two
signs it is the opposite. -/
theorem unsignedOrderOn (ha : a.IsWord w x) (hb : b.IsWord w y) :
    UnsignedOrderOn scope callee f s a b x y := by
  constructor
  case push =>
    intro op r h operand next
    cases h with
    | cgtUn => exact step_compare rfl (greaterOrUnordered_of_reads ha.reads hb.reads)
    | cltUn => exact step_compare rfl (related_of_reads ha.reads hb.reads .less true)
  case branch =>
    intro op r h target next
    have hop : op.action = .transfer (.branchOn (related r true)) := by
      cases h <;> rfl
    exact step_branchOn hop rfl (related_of_reads ha.reads hb.reads r true)
  case unsigned_iff =>
    intro r
    exact on_toInt_iff_on_toNat_iff r x y
  case quotient =>
    intro hy operand next
    have hzero : y.toInt ≠ 0 := by
      intro h
      exact hy (BitVec.eq_of_toInt_eq (h.trans BitVec.toInt_zero.symm))
    have hquotient := computes_divideUnsigned (operands_of_isWord ha hb) .div
    rw [if_neg hzero] at hquotient
    obtain ⟨v, hv, hword⟩ := hquotient.givesWord
    refine ⟨v, x / y, step_binary rfl hv, hword, ?_⟩
    apply BitVec.udiv_eq_zero_iff_eq_zero_or_lt.trans
    exact (or_iff_right hy).trans BitVec.lt_def

end instructions

/-- Minus one counts as less than one, where its pattern is the largest and divides into it. -/
theorem unsignedOrderOn_minusOne :
    step unitScope (call unitScope 0) ⟨.cltUn, .none, none⟩
        ((emptyFrame.pushed (.int32 (-1))).pushed (.int32 1)) {} =
      (.ok (.next, emptyFrame.pushed (.int32 1)), {}) ∧
    step unitScope (call unitScope 0) ⟨.bltUnS, .target 5, none⟩
        ((emptyFrame.pushed (.int32 (-1))).pushed (.int32 1)) {} =
      (.ok (.jump 5, emptyFrame), {}) ∧
    ∃ v q, step unitScope (call unitScope 0) ⟨.divUn, .none, none⟩
        ((emptyFrame.pushed (.int32 (-1))).pushed (.int32 1)) {} =
      (.ok (.next, emptyFrame.pushed v), {}) ∧ v.IsWord 32 q ∧ q ≠ 0 := by
  have hon := @unsignedOrderOn _ _ _ _ _ unitScope (call unitScope 0) emptyFrame {} (.int32 (-1))
    (.int32 1)
  refine ⟨hon.push .cltUn .none none, hon.branch .bltUnS 5 none, ?_⟩
  obtain ⟨v, q, hstep, hword, hquotient⟩ := hon.quotient (by decide) .none none
  exact ⟨v, q, hstep, hword, mt hquotient.1 (by decide)⟩

end Hotswap
