import Hotswap.Engine
import Hotswap.Proofs.Arithmetic.Words
import Hotswap.Proofs.Machine.Run
import Hotswap.Proofs.Table
import Mathlib

/-!
# Compiled expressions

Expressions over integers of 32 bits, compiled to straight-line code that leaves the value on the
stack. Invoking the compiled method gives what the expression means (`invoke_compiled`): the value,
wrapped around at every node, or the first error that is met from left to right.

The meaning `IntExpr.eval` is stated with integers of any size, so that it owes nothing to the
machine. The proof goes through `IntExpr.value`, the same evaluation with the words that the
machine computes with:

* `loop_code`: the code of an expression pushes its value, wherever the code is placed and whatever
  is on the stack below;
* `map_toInt_value`: words and integers agree.
-/

namespace Hotswap

open FrameAction

/-! ## Expressions -/

/-- An operator with two operands. -/
inductive IntOp where
  /-- Addition. -/
  | add
  /-- Subtraction. -/
  | sub
  /-- Multiplication. -/
  | mul
  /-- Division, rounded towards zero. -/
  | div
  /-- The remainder of that division. -/
  | rem
  deriving DecidableEq, Repr

/-- An expression over a number of arguments. -/
inductive IntExpr (arity : Nat) where
  /-- An argument. -/
  | arg (slot : UInt16) (h : slot.toNat < arity)
  /-- A constant. -/
  | const (c : Int32)
  /-- The opposite. -/
  | neg (a : IntExpr arity)
  /-- An operator with its operands. -/
  | binary (op : IntOp) (a b : IntExpr arity)

/-- An integer brought to 32 bits, with its sign. -/
def wrap32 (n : Int) : Int := n.bmod (2 ^ 32)

/-- A quotient or a remainder, which is not defined for a zero divisor and does not fit if the least
integer is divided by minus one. -/
def quotient32 (symbol : String) (x y result : Int) : Except Error Int :=
  if y = 0 then .error .divideByZero
  else if x = -2 ^ 31 ∧ y = -1 then .error (.overflow symbol)
  else .ok result

/-- What an operator makes of two integers. -/
def IntOp.eval : IntOp → Int → Int → Except Error Int
  | .add, x, y => .ok (wrap32 (x + y))
  | .sub, x, y => .ok (wrap32 (x - y))
  | .mul, x, y => .ok (wrap32 (x * y))
  | .div, x, y => quotient32 "/" x y (x.tdiv y)
  | .rem, x, y => quotient32 "%" x y (x.tmod y)

namespace IntExpr

variable {arity : Nat}

/-- What an expression means, evaluated from left to right. -/
def eval (args : Vector Int32 arity) : IntExpr arity → Except Error Int
  | .arg slot h => .ok (args.get ⟨slot.toNat, h⟩).toInt
  | .const c => .ok c.toInt
  | .neg a => do return wrap32 (-(← a.eval args))
  | .binary op a b => do op.eval (← a.eval args) (← b.eval args)

end IntExpr

/-! ## Code -/

/-- An opcode with its operand, before it has a place in a body. -/
abbrev CodeItem := Opcode × Operand

/-- The opcode of an operator. -/
def IntOp.opcode : IntOp → Opcode
  | .add => .add
  | .sub => .sub
  | .mul => .mul
  | .div => .div
  | .rem => .rem

/-- The code of an expression: the operands, then the operator. -/
def IntExpr.code {arity : Nat} : IntExpr arity → List CodeItem
  | .arg slot _ => [(.ldarg, .slot slot)]
  | .const c => [(.ldcI4, .int c.toInt64)]
  | .neg a => a.code ++ [(.neg, .none)]
  | .binary op a b => a.code ++ b.code ++ [(op.opcode, .none)]

/-- Code at consecutive offsets, each instruction followed by the one at the next offset, and a
return at the end. -/
def listing : Nat → List CodeItem → List (UInt32 × Instruction)
  | k, [] => [(.ofNat k, ⟨.ret, .none, none⟩)]
  | k, (op, operand) :: rest =>
    (.ofNat k, ⟨op, operand, some (.ofNat (k + 1))⟩) :: listing (k + 1) rest

/-- A static method with a result whose body is the code of an expression over its parameters. The
offsets of a body increase, so there are fewer than `2 ^ 32` instructions. -/
structure IntExpr.CompiledTo (d : Descriptor) (e : IntExpr d.parameters.length) : Prop where
  /-- There is no receiver. -/
  isStatic : d.isStatic = true
  /-- There is a result. -/
  returns : d.returnsVoid = false
  /-- There are no locals. -/
  locals : d.body.locals = []
  /-- The instructions are those of the expression. -/
  entries : d.body.instructions.entries = listing 0 e.code

/-! ### Where code is -/

/-- A listing ends with a return. -/
theorem mem_listing_ret (k : Nat) (code : List CodeItem) :
    (.ofNat (k + code.length), ⟨.ret, .none, none⟩) ∈ listing k code := by
  induction code generalizing k with
  | nil => exact List.mem_cons_self
  | cons item rest ih =>
    refine List.mem_cons_of_mem _ ?_
    rw [List.length_cons, Nat.add_comm rest.length, ← Nat.add_assoc]
    exact ih (k + 1)

/-- The offsets of a listing are those from its beginning to its end. -/
theorem offset_of_mem_listing {k : Nat} {code : List CodeItem} {entry : UInt32 × Instruction}
    (h : entry ∈ listing k code) : ∃ j, k ≤ j ∧ j ≤ k + code.length ∧ entry.1 = .ofNat j := by
  induction code generalizing k with
  | nil =>
    rw [listing, List.mem_singleton] at h
    exact ⟨k, by omega, by omega, by rw [h]⟩
  | cons item rest ih =>
    rcases List.mem_cons.1 h with rfl | hmem
    · exact ⟨k, by omega, by omega, rfl⟩
    · obtain ⟨j, hfrom, hto, hoffset⟩ := ih hmem
      rw [List.length_cons]
      exact ⟨j, by omega, by omega, hoffset⟩

/-- The offsets of a listing increase, if they fit. -/
theorem increasing_listing {k : Nat} {code : List CodeItem} (h : k + code.length < 2 ^ 32) :
    (listing k code).Pairwise fun a b => compare a.1 b.1 = .lt := by
  induction code generalizing k with
  | nil => exact List.pairwise_singleton _ _
  | cons item rest ih =>
    rw [List.length_cons] at h
    refine List.pairwise_cons.2 ⟨fun entry hmem => ?_, ih (by omega)⟩
    obtain ⟨j, hfrom, hto, hoffset⟩ := offset_of_mem_listing hmem
    have hlt : UInt32.ofNat k < UInt32.ofNat j := by
      have hk : k < UInt32.size := Nat.lt_of_le_of_lt (by omega) h
      have hj : j < UInt32.size := Nat.lt_of_le_of_lt (by omega) h
      rw [UInt32.lt_iff_toNat_lt, UInt32.toNat_ofNat_of_lt' hk, UInt32.toNat_ofNat_of_lt' hj]
      omega
    rw [hoffset]
    exact compareOfLessAndEq_eq_lt.2 hlt

/-- The method that an expression is compiled to. -/
def IntExpr.compiled (name : Signature) (parameters : List TypeName) (returnType : TypeName)
    (maxStack : UInt32) (e : IntExpr parameters.length) (h : e.code.length < 2 ^ 32) :
    Descriptor where
  name := name
  isStatic := true
  parameters := parameters
  returnType := returnType
  body := {
    maxStack := maxStack
    locals := []
    instructions := ⟨listing 0 e.code, increasing_listing (by omega)⟩ }

/-- An expression whose code fits in the offsets is compiled to that method. -/
theorem IntExpr.compiledTo_compiled {name : Signature} {parameters : List TypeName}
    {returnType : TypeName} {maxStack : UInt32} {e : IntExpr parameters.length}
    (h : e.code.length < 2 ^ 32) (hvoid : returnType.isVoid = false) :
    IntExpr.CompiledTo (e.compiled name parameters returnType maxStack h) e :=
  ⟨rfl, hvoid, rfl, rfl⟩

/-- A body has code at an offset, and an instruction after it. -/
def Body.HasCode (b : Body) : Nat → List CodeItem → Prop
  | k, [] => b.instructions.contains (.ofNat k) = true
  | k, (op, operand) :: rest =>
    b.instructions.get? (.ofNat k) = some ⟨op, operand, some (.ofNat (k + 1))⟩ ∧
      b.HasCode (k + 1) rest

namespace Body.HasCode

variable {b : Body}

/-- There is an instruction at the offset of code. -/
theorem contains {k : Nat} {code : List CodeItem} (h : b.HasCode k code) :
    b.instructions.contains (.ofNat k) = true := by
  cases code with
  | nil => exact h
  | cons item rest =>
    rw [Table.contains, h.1]
    rfl

/-- Code in two parts has the first part, and behind it the second. -/
theorem of_append {k : Nat} {first second : List CodeItem} (h : b.HasCode k (first ++ second)) :
    b.HasCode k first ∧ b.HasCode (k + first.length) second := by
  induction first generalizing k with
  | nil => exact ⟨h.contains, h⟩
  | cons item rest ih =>
    obtain ⟨hhead, htail⟩ := h
    obtain ⟨hrest, hsecond⟩ := ih htail
    refine ⟨⟨hhead, hrest⟩, ?_⟩
    rw [List.length_cons, Nat.add_comm rest.length, ← Nat.add_assoc]
    exact hsecond

/-- A body has the code of a listing that is part of it. -/
theorem of_listing {k : Nat} {code : List CodeItem}
    (h : ∀ entry ∈ listing k code, entry ∈ b.instructions.entries) : b.HasCode k code := by
  induction code generalizing k with
  | nil => exact Table.contains_eq_true_iff.2 ⟨_, h _ List.mem_cons_self⟩
  | cons item rest ih =>
    refine ⟨Table.get?_eq_some_iff.2 (h _ List.mem_cons_self), ih fun entry hentry => ?_⟩
    exact h entry (List.mem_cons_of_mem _ hentry)

end Body.HasCode

/-! ## Words -/

/-- The operator of the machine. -/
def IntOp.toBinaryOp : IntOp → BinaryOp
  | .add => .add
  | .sub => .sub
  | .mul => .mul
  | .div => .div
  | .rem => .rem

/-- What an operator makes of two words. -/
def IntOp.value (op : IntOp) (x y : Int32) : Except Error Int32 := intOp32 op.toBinaryOp x y

/-- The value of an expression, computed with words. -/
def IntExpr.value {arity : Nat} (args : Vector Int32 arity) : IntExpr arity → Except Error Int32
  | .arg slot h => .ok (args.get ⟨slot.toNat, h⟩)
  | .const c => .ok c
  | .neg a => do return -(← a.value args)
  | .binary op a b => do op.value (← a.value args) (← b.value args)

/-- A division of words is a division of integers, if its result is the word of the result. -/
theorem map_toInt_divideWord (op : BinaryOp) {x y result : BitVec 32} {n : Int}
    (h : ¬(x.toInt = -2 ^ 31 ∧ y.toInt = -1) → result.toInt = n) :
    (divideWord op x y result).map BitVec.toInt = quotient32 op.symbol x.toInt y.toInt n := by
  by_cases hzero : y.toInt = 0
  · rw [divideWord_eq_divideByZero_iff.2 hzero, quotient32, if_pos hzero]
    rfl
  · by_cases hleast : x.toInt = -2 ^ 31 ∧ y.toInt = -1
    · rw [divideWord_eq_overflow_iff.2 hleast, quotient32, if_neg hzero, if_pos hleast]
      rfl
    · rw [divideWord_of_exact hzero hleast, quotient32, if_neg hzero, if_neg hleast]
      exact congrArg Except.ok (h hleast)

/-- An operator makes of words what it makes of integers. -/
theorem IntOp.map_toInt_value (op : IntOp) (x y : Int32) :
    (op.value x y).map Int32.toInt = op.eval x.toInt y.toInt := by
  have hword : (op.value x y).map Int32.toInt =
      (wordOp op.toBinaryOp x.toBitVec y.toBitVec).map BitVec.toInt := by
    rw [← map_toBitVec_intOp32, IntOp.value]
    cases intOp32 op.toBinaryOp x y <;> rfl
  rw [hword]
  cases op with
  | add => exact congrArg Except.ok (Int32.toInt_add x y)
  | sub => exact congrArg Except.ok (Int32.toInt_sub x y)
  | mul => exact congrArg Except.ok (Int32.toInt_mul x y)
  | div => exact map_toInt_divideWord .div fun hfits => toInt_sdiv (by decide) hfits
  | rem => exact map_toInt_divideWord .rem fun _ => BitVec.toInt_srem _ _

/-- **Words and integers agree:** the word of an expression reads as what the expression means, and
the errors are the same. -/
theorem IntExpr.map_toInt_value {arity : Nat} (args : Vector Int32 arity) (e : IntExpr arity) :
    (e.value args).map Int32.toInt = e.eval args := by
  induction e with
  | arg slot h => rfl
  | const c => rfl
  | neg a ih =>
    rw [IntExpr.eval, IntExpr.value, ← ih]
    cases a.value args with
    | error err => rfl
    | ok x => exact congrArg Except.ok (Int32.toInt_neg x)
  | binary op a b iha ihb =>
    rw [IntExpr.eval, IntExpr.value, ← iha, ← ihb]
    cases a.value args with
    | error err => rfl
    | ok x =>
      cases b.value args with
      | error err => rfl
      | ok y => exact op.map_toInt_value x y

/-! ## Runs -/

/-- What an opcode of an operator does to two words. -/
theorem IntOp.action_opcode (op : IntOp) :
    ∃ operation, op.opcode.action = .effect (.binary operation) ∧
      ∀ x y : Int32, operation (.int32 x) (.int32 y) = (op.value x y).map Value.int32 := by
  cases op <;> exact ⟨_, rfl, fun _ _ => rfl⟩

section run

variable {scope : Scope} {callee : Callee} {arity : Nat} {args : Vector Int32 arity}

/-- A frame that is about to run code with arguments. -/
structure Frame.Ready (f : Frame) (args : Vector Int32 arity) (k : Nat) (code : List CodeItem) :
    Prop where
  /-- The arguments. -/
  args : f.args = args.toList.map .int32
  /-- Control is at the beginning of the code. -/
  offset : f.offset = .ofNat k
  /-- The body has the code. -/
  code : f.descriptor.body.HasCode k code

/-- The frame after code that has left a value. -/
def Frame.after (f : Frame) (v : Int32) (k : Nat) : Frame :=
  Frame.pushed { f with offset := .ofNat k } (.int32 v)

/-- The instruction at the offset of a ready frame is the first of the code. -/
theorem Frame.Ready.instruction {f : Frame} {k : Nat} {op : Opcode} {operand : Operand}
    {rest : List CodeItem} (h : f.Ready args k ((op, operand) :: rest)) :
    f.descriptor.body.instructions.get? f.offset =
      some ⟨op, operand, some (.ofNat (k + 1))⟩ := by
  rw [h.offset]
  exact h.code.1

/-- Code in two parts: the second is ready when the first has left a value. -/
theorem Frame.Ready.of_append {f : Frame} {k : Nat} {first second : List CodeItem}
    (h : f.Ready args k (first ++ second)) :
    f.Ready args k first ∧
      ∀ v, (f.after v (k + first.length)).Ready args (k + first.length) second := by
  obtain ⟨hfirst, hsecond⟩ := h.code.of_append
  exact ⟨⟨h.args, h.offset, hfirst⟩, fun v => ⟨h.args, rfl, hsecond⟩⟩

/-- One instruction that leaves a word. -/
theorem loop_item (fuel : Nat) {f g : Frame} {s : State} {k : Nat} {v : Int32} {op : Opcode}
    {operand : Operand} {effect : Effect} (h : f.Ready args k [(op, operand)])
    (he : op.action = .effect effect)
    (hperform : perform scope callee ⟨op, operand, some (.ofNat (k + 1))⟩ effect f s =
      (.ok ((), g.pushed (.int32 v)), s))
    (hd : g.descriptor = f.descriptor) :
    loop scope callee (fuel + 1) f s = loop scope callee fuel (g.after v (k + 1)) s :=
  loop_effect fuel h.instruction he rfl h.code.2 hperform hd

/-- The opposite of the word on top. -/
theorem loop_neg (fuel : Nat) {f : Frame} {s : State} {k : Nat} {x : Int32}
    (h : (f.after x k).Ready args k [(.neg, .none)]) :
    loop scope callee (fuel + 1) (f.after x k) s =
      loop scope callee fuel (f.after (-x) (k + 1)) s := by
  have hperform : perform scope callee ⟨.neg, .none, some (.ofNat (k + 1))⟩ (.unary negate)
      (f.after x k) s = (.ok ((), Frame.pushed { f with offset := .ofNat k } (.int32 (-x))), s) :=
    perform_unary negate (.int32 x)
  have hrun := loop_item fuel h rfl hperform rfl
  exact hrun

/-- An operator on the two words on top. -/
theorem loop_op (fuel : Nat) {f : Frame} {s : State} {j k : Nat} {x y : Int32} (op : IntOp)
    (h : ((f.after x j).after y k).Ready args k [(op.opcode, .none)]) :
    loop scope callee (fuel + 1) ((f.after x j).after y k) s =
      match op.value x y with
      | .ok v => loop scope callee fuel (f.after v (k + 1)) s
      | .error err => (.error (.failed err), s) := by
  obtain ⟨operation, haction, hoperation⟩ := op.action_opcode
  have hperform := @perform_binary scope callee { f with offset := .ofNat k }
    ⟨op.opcode, .none, some (.ofNat (k + 1))⟩ s operation (.int32 x) (.int32 y)
  rw [hoperation x y] at hperform
  cases hvalue : op.value x y with
  | ok v =>
    rw [hvalue] at hperform
    have hrun := loop_item fuel h haction hperform rfl
    exact hrun
  | error err =>
    rw [hvalue] at hperform
    exact loop_effect_error fuel h.instruction haction hperform

/-- **The code of an expression pushes its value**, or stops with its error. The induction is on the
expression; the operands of a node run at places and on stacks of their own, so both are general. -/
theorem loop_code (e : IntExpr arity) {f : Frame} {k : Nat} (h : f.Ready args k e.code)
    (fuel : Nat) (s : State) :
    loop scope callee (fuel + e.code.length) f s =
      match e.value args with
      | .ok v => loop scope callee fuel (f.after v (k + e.code.length)) s
      | .error err => (.error (.failed err), s) := by
  induction e generalizing f k fuel with
  | arg slot hslot =>
    refine loop_item fuel h rfl (perform_loadArg rfl ?_) rfl
    rw [h.args, List.getElem?_map, Vector.getElem?_toList, Vector.getElem?_eq_getElem hslot]
    rfl
  | const c => exact loop_item fuel h rfl (perform_pushInt32 rfl) rfl
  | neg a ih =>
    obtain ⟨ha, hneg⟩ := h.of_append
    have hfuel : fuel + (IntExpr.neg a).code.length = fuel + 1 + a.code.length := by
      simp only [IntExpr.code, List.length_append, List.length_singleton]
      omega
    rw [hfuel, ih ha, IntExpr.value]
    cases a.value args with
    | error err => rfl
    | ok x =>
      have hend : k + (IntExpr.neg a).code.length = k + a.code.length + 1 := by
        rw [IntExpr.code, List.length_append, List.length_singleton, Nat.add_assoc]
      rw [hend]
      exact loop_neg fuel (hneg x)
  | binary op a b iha ihb =>
    obtain ⟨hab, hop⟩ := h.of_append
    obtain ⟨ha, hb⟩ := hab.of_append
    have hfuel : fuel + (IntExpr.binary op a b).code.length =
        fuel + 1 + b.code.length + a.code.length := by
      simp only [IntExpr.code, List.length_append, List.length_singleton]
      omega
    rw [hfuel, iha ha, IntExpr.value]
    cases a.value args with
    | error err => rfl
    | ok x =>
      show loop scope callee (fuel + 1 + b.code.length) (f.after x (k + a.code.length)) s = _
      rw [ihb (hb x)]
      cases b.value args with
      | error err => rfl
      | ok y =>
        have hop' : ((f.after x (k + a.code.length)).after y
            (k + a.code.length + b.code.length)).Ready args
            (k + a.code.length + b.code.length) [(op.opcode, .none)] := by
          rw [Nat.add_assoc, ← List.length_append]
          exact ⟨(hop y).args, rfl, (hop y).code⟩
        have hend : k + (IntExpr.binary op a b).code.length =
            k + a.code.length + b.code.length + 1 := by
          simp only [IntExpr.code, List.length_append, List.length_singleton]
          omega
        rw [hend]
        exact loop_op fuel op hop'

/-- The run of a compiled method. -/
theorem execute_compiled {d : Descriptor} {e : IntExpr d.parameters.length}
    (h : e.CompiledTo d) (args : Vector Int32 d.parameters.length) {fuel : Nat}
    (hfuel : e.code.length < fuel) (context : GenericContext) (s : State) :
    execute scope callee fuel d context (args.toList.map .int32) s =
      match e.value args with
      | .ok v => (.ok (.int32 v), s)
      | .error err => (.error (.failed err), s) := by
  have hentry : d.body.entry? = some 0 := by
    unfold Body.entry? Table.keys
    rw [h.entries]
    cases e.code <;> rfl
  have hcount : (args.toList.map Value.int32).length = d.argCount := by
    simp [Descriptor.argCount, h.isStatic]
  have hcode : d.body.HasCode 0 e.code := .of_listing fun entry hmem => h.entries ▸ hmem
  have hret : d.body.instructions.get? (.ofNat (0 + e.code.length)) =
      some ⟨.ret, .none, none⟩ :=
    Table.get?_eq_some_iff.2 (h.entries ▸ mem_listing_ret 0 e.code)
  obtain ⟨extra, rfl⟩ : ∃ extra, fuel = extra + 1 + e.code.length :=
    ⟨fuel - 1 - e.code.length, by omega⟩
  rw [execute_eq _ hentry (Frame.start_eq context hentry hcount h.locals) rfl,
    loop_code e ⟨rfl, rfl, hcode⟩ (extra + 1) s]
  cases e.value args with
  | error err => rfl
  | ok v =>
    dsimp only
    rw [loop_ret extra hret rfl h.returns rfl]

end run

/-- **Compiled expressions evaluate correctly.** Invoking a method that an expression was compiled
to gives the word of what the expression means, or the first error that evaluation from left to
right meets, and leaves the engine as it was. -/
theorem invoke_compiled (engine : Engine) {d : Descriptor} {e : IntExpr d.parameters.length}
    (h : e.CompiledTo d) (hfiled : engine.catalogue.get? d.name.render = some d)
    (receiver : Option Value) (args : Vector Int32 d.parameters.length) {fuel : Nat}
    (hfuel : e.code.length + 2 ≤ fuel) :
    match e.eval args with
    | .ok n => ∃ v : Int32, v.toInt = n ∧
        engine.invoke fuel d.name receiver (args.toList.map .int32) = (.ok (.int32 v), engine)
    | .error err =>
        engine.invoke fuel d.name receiver (args.toList.map .int32) =
          (.error (.failed err), engine) := by
  obtain ⟨fuel, rfl⟩ : ∃ extra, fuel = extra + 1 := ⟨fuel - 1, by omega⟩
  have hslots : slots d receiver (args.toList.map .int32) = args.toList.map .int32 := by
    rw [slots, if_pos h.isStatic]
  have hinvoke : engine.invoke (fuel + 1) d.name receiver (args.toList.map .int32) =
      match e.value args with
      | .ok v => (.ok (.int32 v), engine)
      | .error err => (.error (.failed err), engine) := by
    unfold Engine.invoke Engine.run
    rw [invoke_eq fuel receiver _ hfiled, hslots, execute_compiled h args (by omega)]
    cases e.value args <;> rfl
  rw [← e.map_toInt_value args, hinvoke]
  cases e.value args with
  | error err => rfl
  | ok v => exact ⟨v, rfl, rfl⟩

/-- The first argument divided by the second. -/
def divideExpr : IntExpr 2 := .binary .div (.arg 0 (by decide)) (.arg 1 (by decide))

/-- A method that divides its first argument by its second. -/
def divideMethod : Descriptor :=
  let int32 : TypeName := .named "System.Int32" []
  IntExpr.compiled ⟨.named "T" [], "Divide", [], [int32, int32]⟩ [int32, int32] int32 2 divideExpr
    (by decide)

/-- Seven divided by minus two is minus three, and cannot be divided by zero. -/
theorem invoke_divideMethod :
    let engine : Engine := .start ⟨Table.insert ∅ divideMethod.name.render divideMethod⟩ {}
    (∃ v : Int32, v.toInt = -3 ∧
      engine.invoke 5 divideMethod.name none [.int32 7, .int32 (-2)] = (.ok (.int32 v), engine)) ∧
    engine.invoke 5 divideMethod.name none [.int32 7, .int32 0] =
      (.error (.failed .divideByZero), engine) := by
  intro engine
  have hfiled : engine.catalogue.get? divideMethod.name.render = some divideMethod :=
    Table.get?_insert_self _ _ _
  have hcompiled : IntExpr.CompiledTo divideMethod divideExpr :=
    IntExpr.compiledTo_compiled (by decide) (by decide)
  exact ⟨invoke_compiled engine hcompiled hfiled none #v[7, -2] (by decide),
    invoke_compiled engine hcompiled hfiled none #v[7, 0] (by decide)⟩

end Hotswap
