import Hotswap.Proofs.Arithmetic.Words

/-!
# Arithmetic on integers

What the operators give for two integers, said with integers. There are three widths of integers and
two of results: the operators bring both operands to the narrower width, where an integer of 8 bits
counts as one of 32 (`operands`), and a shift keeps the width of the integer that is shifted.

`Computes` says that a computation of a value does what a computation of a word does. All operators
come down to `wordOp` in that sense, by `computes_arith` and by what the others have to do with
`arith`. The main statements are

* `exactOn`, about the operators that wrap around, the divisions with a sign and without, the
  bitwise operators and the shifts, and
* `checkedOn`, about the operators that fail if the exact result is not what a word is read as.
-/

namespace Hotswap

variable {w v v' : Nat} {a b : Value} {m n : Int} {x y : BitVec w}

/-! ## Integers and words -/

/-- A value is an integer. The width is that of the operators, which take an integer of 8 bits for
one of 32. -/
inductive Value.IsInteger : Value → Nat → Int → Prop
  /-- An integer of 8 bits. -/
  | int8 (n : Int8) : IsInteger (.int8 n) 32 n.toInt
  /-- An integer of 32 bits. -/
  | int32 (n : Int32) : IsInteger (.int32 n) 32 n.toInt
  /-- An integer of 64 bits. -/
  | int64 (n : Int64) : IsInteger (.int64 n) 64 n.toInt

/-- A value is the integer of a width with a pattern of bits. -/
inductive Value.IsWord : Value → (w : Nat) → BitVec w → Prop
  /-- An integer of 32 bits. -/
  | int32 (n : Int32) : IsWord (.int32 n) 32 n.toBitVec
  /-- An integer of 64 bits. -/
  | int64 (n : Int64) : IsWord (.int64 n) 64 n.toBitVec

/-- The bits determine the value. -/
theorem Value.IsWord.unique (ha : a.IsWord w x) (hb : b.IsWord w x) : a = b := by
  cases ha with
  | int32 k =>
    generalize hx : k.toBitVec = x at hb
    cases hb
    rw [Int32.toBitVec_inj.1 hx]
  | int64 k =>
    generalize hx : k.toBitVec = x at hb
    cases hb
    rw [Int64.toBitVec_inj.1 hx]

/-- An operator on values does what another does on words: it stops with the same error, or gives
the word. -/
inductive Computes (w : Nat) : Except Error Value → Except Error (BitVec w) → Prop
  /-- A word. -/
  | ok {a : Value} {x : BitVec w} (h : a.IsWord w x) : Computes w (.ok a) (.ok x)
  /-- An error. -/
  | error (e : Error) : Computes w (.error e) (.error e)

/-- A computation gives the integer of a width with a pattern of bits. -/
def GivesWord (o : Except Error Value) (x : BitVec w) : Prop := ∃ a, o = .ok a ∧ a.IsWord w x

/-- An operator that computes a word has it as its result. -/
theorem Computes.givesWord {o : Except Error Value} (h : Computes w o (.ok x)) : GivesWord o x := by
  cases h with
  | ok h => exact ⟨_, rfl, h⟩

/-- It fails exactly where the computation on words fails. -/
theorem Computes.eq_error_iff {o : Except Error Value} {r : Except Error (BitVec w)} {e : Error}
    (h : Computes w o r) : o = .error e ↔ r = .error e := by
  cases h with
  | ok h => exact iff_of_false nofun nofun
  | error e' => rw [Except.error.injEq, Except.error.injEq]

/-- What branches at corresponding conditions computes what both branches compute. -/
theorem Computes.ite {c c' : Prop} [Decidable c] [Decidable c'] {o o' : Except Error Value}
    {r r' : Except Error (BitVec w)} (hc : c' ↔ c) (h : Computes w o r) (h' : Computes w o' r') :
    Computes w (if c then o else o') (if c' then r else r') := by
  by_cases hcase : c
  · rw [if_pos hcase, if_pos (hc.2 hcase)]
    exact h
  · rw [if_neg hcase, if_neg (mt hc.1 hcase)]
    exact h'

/-- An operator on `Int32` computes words of 32 bits. -/
theorem computes_int32 (r : Except Error Int32) :
    Computes 32 (r.map .int32) (r.map Int32.toBitVec) := by
  cases r with
  | error e => exact .error e
  | ok k => exact .ok (.int32 k)

/-- An operator on `Int64` computes words of 64 bits. -/
theorem computes_int64 (r : Except Error Int64) :
    Computes 64 (r.map .int64) (r.map Int64.toBitVec) := by
  cases r with
  | error e => exact .error e
  | ok k => exact .ok (.int64 k)

/-! ## The narrower width -/

/-- A number is an integer of a width. -/
inductive Num.IsInteger : Num → Nat → Int → Prop
  /-- An integer of 32 bits. -/
  | int32 (n : Int32) : IsInteger (.int32 n) 32 n.toInt
  /-- An integer of 64 bits. -/
  | int64 (n : Int64) : IsInteger (.int64 n) 64 n.toInt

/-- Two numbers of one width are integers with these patterns of bits. -/
inductive NumPair.AreWords : NumPair → (w : Nat) → BitVec w → BitVec w → Prop
  /-- Integers of 32 bits. -/
  | int32 (x y : Int32) : AreWords (.int32 x y) 32 x.toBitVec y.toBitVec
  /-- Integers of 64 bits. -/
  | int64 (x y : Int64) : AreWords (.int64 x y) 64 x.toBitVec y.toBitVec

/-- Two values are brought to these words. -/
def Operands (a b : Value) (w : Nat) (x y : BitVec w) : Prop :=
  ∃ p, NumPair.ofValues? a b = some p ∧ p.AreWords w x y

/-- An integer is a number of the width at which it computes. -/
theorem Value.IsInteger.number (h : a.IsInteger v m) :
    ∃ k, Num.ofValue? a = some k ∧ k.IsInteger v m := by
  cases h with
  | int8 n => exact ⟨_, rfl, Int8.toInt_toInt32 n ▸ .int32 n.toInt32⟩
  | int32 n => exact ⟨_, rfl, .int32 n⟩
  | int64 n => exact ⟨_, rfl, .int64 n⟩

/-- Two integer numbers meet in the narrower of their widths. -/
theorem NumPair.areWords_of {k l : Num} (hk : k.IsInteger v m) (hl : l.IsInteger v' n) :
    (NumPair.of k l).AreWords (min v v') (.ofInt _ m) (.ofInt _ n) := by
  have word32 : ∀ k : Int32, BitVec.ofInt 32 k.toInt = k.toBitVec := BitVec.ofInt_int32ToInt
  have word64 : ∀ k : Int64, BitVec.ofInt 64 k.toInt = k.toBitVec := BitVec.ofInt_int64ToInt
  cases hk with
  | int32 k =>
    cases hl with
    | int32 l =>
      show NumPair.AreWords _ 32 (.ofInt 32 k.toInt) (.ofInt 32 l.toInt)
      rw [word32, word32]
      exact .int32 k l
    | int64 l =>
      show NumPair.AreWords _ 32 (.ofInt 32 k.toInt) l.toInt32.toBitVec
      rw [word32]
      exact .int32 k l.toInt32
  | int64 k =>
    cases hl with
    | int32 l =>
      show NumPair.AreWords _ 32 k.toInt32.toBitVec (.ofInt 32 l.toInt)
      rw [word32]
      exact .int32 k.toInt32 l
    | int64 l =>
      show NumPair.AreWords _ 64 (.ofInt 64 k.toInt) (.ofInt 64 l.toInt)
      rw [word64, word64]
      exact .int64 k l

/-- Two integers are brought to the words of the narrower width. -/
theorem operands (ha : a.IsInteger v m) (hb : b.IsInteger v' n) :
    Operands a b (min v v') (.ofInt _ m) (.ofInt _ n) := by
  obtain ⟨k, hk, hkm⟩ := ha.number
  obtain ⟨l, hl, hln⟩ := hb.number
  refine ⟨_, ?_, NumPair.areWords_of hkm hln⟩
  unfold NumPair.ofValues?
  rw [hk, hl]

/-- An operator on two integers does what it does on their words. -/
theorem computes_arith (h : Operands a b w x y) (op : BinaryOp) :
    Computes w (arith op a b) (wordOp op x y) := by
  obtain ⟨p, hp, hwords⟩ := h
  unfold arith
  rw [hp]
  cases hwords with
  | int32 x y => exact map_toBitVec_intOp32 op x y ▸ computes_int32 (intOp32 op x y)
  | int64 x y => exact map_toBitVec_intOp64 op x y ▸ computes_int64 (intOp64 op x y)

/-- Division without a sign is that of the words without their signs. -/
theorem computes_divideUnsigned (h : Operands a b w x y) (op : BinaryOp) :
    Computes w (divideUnsigned op a b) (if y.toInt = 0 then .error .divideByZero
      else .ok (if op = .rem then x % y else x / y)) := by
  obtain ⟨p, hp, hwords⟩ := h
  unfold divideUnsigned
  rw [hp]
  cases hwords with
  | int32 x y =>
    have hbits := apply_ite UInt32.toBitVec (op = .rem) (x.toUInt32 % y.toUInt32)
      (x.toUInt32 / y.toUInt32)
    exact .ite (Int32.toInt_inj (y := 0)) (.error _) (.ok (hbits ▸ .int32 _))
  | int64 x y =>
    have hbits := apply_ite UInt64.toBitVec (op = .rem) (x.toUInt64 % y.toUInt64)
      (x.toUInt64 / y.toUInt64)
    exact .ite (Int64.toInt_inj (y := 0)) (.error _) (.ok (hbits ▸ .int64 _))

/-! ## Bits -/

/-- Conjunction and disjunction take the operands as arithmetic does. -/
theorem bitwise_eq_arith (ha : a.IsInteger v m) (hb : b.IsInteger v' n) {op : BinaryOp}
    (hop : op.isShift = false) : bitwise op a b = arith op a b := by
  cases ha <;> cases hb <;>
    simp [bitwise, bits?, arith, NumPair.ofValues?, Num.ofValue?, NumPair.of, hop]

/-- A shift takes the amount with the width of the integer that is shifted. -/
theorem exists_bitwise_eq_arith (ha : a.IsInteger v m) (hb : b.IsInteger v' n) {op : BinaryOp}
    (hop : op.isShift = true) :
    ∃ b' u, b'.IsInteger u n ∧ v ≤ u ∧ bitwise op a b = arith op a b' := by
  have hwide : 32 ≤ v' := by cases hb <;> decide
  cases ha with
  | int8 k => exact ⟨b, v', hb, hwide, by cases hb <;> rfl⟩
  | int32 k => exact ⟨b, v', hb, hwide, by cases hb <;> rfl⟩
  | int64 k =>
    cases hb with
    | int8 l =>
      refine ⟨.int64 l.toInt32.toInt64, 64, ?_, Nat.le_refl _, if_pos hop⟩
      have hint : l.toInt32.toInt64.toInt = l.toInt := by
        rw [Int32.toInt_toInt64, Int8.toInt_toInt32]
      exact hint ▸ .int64 _
    | int32 l =>
      exact ⟨.int64 l.toInt64, 64, Int32.toInt_toInt64 l ▸ .int64 _, Nat.le_refl _, if_pos hop⟩
    | int64 l => exact ⟨.int64 l, 64, .int64 l, Nat.le_refl _, rfl⟩

/-! ## Operators that wrap around -/

/-- What the operators give for two values that are integers `m` and `n` in words `x` and `y` of
their common width `w`. The width of the first one is `v`. -/
structure ExactOn (a b : Value) (m n : Int) (v w : Nat) (x y : BitVec w) : Prop where
  /-- Sums, differences and products wrap around. -/
  ring (op : RingOp) : ∃ z : BitVec w, GivesWord (arith op.binary a b) z ∧
    z.toInt ≡ op.on m n [ZMOD 2 ^ w]
  /-- There is no division by zero. -/
  divideByZero {op : BinaryOp} (hop : op = .div ∨ op = .rem) :
    arith op a b = .error .divideByZero ↔ y.toInt = 0
  /-- The least integer is not divided by minus one. -/
  overflow {op : BinaryOp} (hop : op = .div ∨ op = .rem) :
    arith op a b = .error (.overflow op.symbol) ↔ x.toInt = -2 ^ (w - 1) ∧ y.toInt = -1
  /-- Any other division is exact and truncated. -/
  divide (hzero : y.toInt ≠ 0) (hmin : ¬(x.toInt = -2 ^ (w - 1) ∧ y.toInt = -1)) :
    ∃ q r : BitVec w, GivesWord (arith .div a b) q ∧ GivesWord (arith .rem a b) r ∧
      q.toInt = x.toInt.tdiv y.toInt ∧ x.toInt = q.toInt * y.toInt + r.toInt
  /-- There is no division by zero without a sign. -/
  divideUnsignedByZero (op : BinaryOp) :
    divideUnsigned op a b = .error .divideByZero ↔ y.toInt = 0
  /-- Any other division without a sign is that of the patterns. -/
  divideUnsigned (hzero : y.toInt ≠ 0) : ∃ q r : BitVec w,
    GivesWord (divideUnsigned .div a b) q ∧ GivesWord (divideUnsigned .rem a b) r ∧
      q.toNat = x.toNat / y.toNat ∧ r.toNat = x.toNat % y.toNat
  /-- Conjunction acts on the patterns. -/
  and : GivesWord (bitwise .and a b) (x &&& y)
  /-- Disjunction acts on the patterns. -/
  or : GivesWord (bitwise .or a b) (x ||| y)
  /-- Exclusive disjunction acts on the patterns. -/
  xor : GivesWord (bitwise .xor a b) (x ^^^ y)
  /-- A shift to the left has the width of the first integer. -/
  shl : GivesWord (bitwise .shl a b) (BitVec.ofInt v m <<< (n % v).toNat)
  /-- So has a shift to the right that keeps the sign. -/
  shr : GivesWord (bitwise .shr a b) ((BitVec.ofInt v m).sshiftRight (n % v).toNat)
  /-- So has a shift to the right that brings in zeros. -/
  shrUn : GivesWord (bitwise .shrUn a b) (BitVec.ofInt v m >>> (n % v).toNat)

/-- A shift is that of the word of the width of the first integer, by the second one modulo that
width. -/
theorem computes_shift (ha : a.IsInteger v m) (hb : b.IsInteger v' n) {op : BinaryOp}
    (hop : op.isShift = true) :
    Computes v (bitwise op a b) (wordOp op (BitVec.ofInt v m) (BitVec.ofInt v n)) := by
  obtain ⟨b', u, hb', hwide, heq⟩ := exists_bitwise_eq_arith ha hb hop
  have hcomputes := computes_arith (operands ha hb') op
  rw [Nat.min_eq_left hwide] at hcomputes
  rw [heq]
  exact hcomputes

/-- A width divides the number of its words, so that the amount of a shift can be read off the word.
-/
theorem Value.IsInteger.width (ha : a.IsInteger v m) : 0 < v ∧ v ∣ 2 ^ v := by
  cases ha <;> decide

/-- **The operators on integers are exact** in the narrower width of the two, and shifts in the
width of the first one. -/
theorem exactOn (ha : a.IsInteger v m) (hb : b.IsInteger v' n) :
    ExactOn a b m n v (min v v') (.ofInt _ m) (.ofInt _ n) := by
  let x := BitVec.ofInt (min v v') m
  let y := BitVec.ofInt (min v v') n
  have hpos : 0 < min v v' := Nat.lt_min.2 ⟨ha.width.1, hb.width.1⟩
  have harith : ∀ op, Computes _ (arith op a b) (wordOp op x y) := computes_arith (operands ha hb)
  have hunsigned := computes_divideUnsigned (operands ha hb)
  have hlogic : ∀ op : BinaryOp, op.isShift = false →
      Computes _ (bitwise op a b) (wordOp op x y) := by
    intro op hop
    rw [bitwise_eq_arith ha hb hop]
    exact harith op
  have hamount : shiftAmount (BitVec.ofInt v n) = (n % v).toNat := shiftAmount_ofInt ha.width.2 n
  constructor
  case ring =>
    intro op
    refine ⟨.ofInt _ (op.on m n), ?_, toInt_ofInt_modEq _ _⟩
    exact Computes.givesWord (op.wordOp_ofInt m n ▸ harith op.binary)
  case divideByZero =>
    rintro op (rfl | rfl) <;> exact (harith _).eq_error_iff.trans divideWord_eq_divideByZero_iff
  case overflow =>
    rintro op (rfl | rfl) <;> exact (harith _).eq_error_iff.trans divideWord_eq_overflow_iff
  case divide =>
    intro hzero hmin
    have hdiv : wordOp .div x y = .ok (x.sdiv y) := divideWord_of_exact hzero hmin
    have hrem : wordOp .rem x y = .ok (x.srem y) := divideWord_of_exact hzero hmin
    refine ⟨x.sdiv y, x.srem y, Computes.givesWord (hdiv ▸ harith .div),
      Computes.givesWord (hrem ▸ harith .rem), toInt_sdiv hpos hmin, ?_⟩
    rw [toInt_sdiv hpos hmin, BitVec.toInt_srem]
    exact (Int.tdiv_mul_add_tmod _ _).symm
  case divideUnsignedByZero =>
    intro op
    apply (hunsigned op).eq_error_iff.trans
    by_cases hzero : y.toInt = 0
    · rw [if_pos hzero]
      exact iff_of_true rfl hzero
    · rw [if_neg hzero]
      exact iff_of_false nofun hzero
  case divideUnsigned =>
    intro hzero
    have hdiv := hunsigned .div
    have hrem := hunsigned .rem
    rw [if_neg hzero] at hdiv hrem
    exact ⟨x / y, x % y, hdiv.givesWord, hrem.givesWord, BitVec.toNat_udiv, BitVec.toNat_umod⟩
  case and => exact (hlogic .and rfl).givesWord
  case or => exact (hlogic .or rfl).givesWord
  case xor => exact (hlogic .xor rfl).givesWord
  case shl => exact hamount ▸ (computes_shift ha hb rfl).givesWord
  case shr => exact hamount ▸ (computes_shift ha hb rfl).givesWord
  case shrUn => exact hamount ▸ (computes_shift ha hb rfl).givesWord

/-- The least integer of 64 bits and minus one in 8 bits are zero and minus one in 32. In 64 bits
both, the one is not divided by the other. -/
theorem exactOn_minimum :
    arith .div (.int64 Int64.minValue) (.int64 (-1)) = .error (.overflow "/") ∧
      (∃ q r : BitVec 32, GivesWord (arith .div (.int64 Int64.minValue) (.int8 (-1))) q ∧
        GivesWord (arith .rem (.int64 Int64.minValue) (.int8 (-1))) r ∧ q.toInt = 0 ∧ r.toInt = 0) ∧
      GivesWord (bitwise .shr (.int64 Int64.minValue) (.int8 (-1))) (-1 : BitVec 64) := by
  have hwide := exactOn (.int64 Int64.minValue) (.int64 (-1))
  have hnarrow := exactOn (.int64 Int64.minValue) (.int8 (-1))
  refine ⟨(hwide.overflow (.inl rfl)).2 (by decide), ?_, hnarrow.shr⟩
  obtain ⟨q, r, hq, hr, hquotient, hexact⟩ := hnarrow.divide (by decide) (by decide)
  have hzero : q.toInt = 0 := hquotient
  rw [hzero, Int.zero_mul, Int.zero_add] at hexact
  exact ⟨q, r, hq, hr, hzero, hexact.symm⟩

/-! ## Operators that are checked -/

/-- The integer that a word is read as, with a sign or without. -/
def reading (unsigned : Bool) (x : BitVec w) : Int := if unsigned then x.toNat else x.toInt

/-- The word of what a word is read as is that word. -/
theorem ofInt_reading (unsigned : Bool) (x : BitVec w) :
    BitVec.ofInt w (reading unsigned x) = x := by
  cases unsigned with
  | false => exact BitVec.ofInt_toInt
  | true => exact ofInt_toNat x

/-- With a sign, `w` bits hold the integers of the two's complement. -/
theorem inWidth_signed_iff (w : Nat) (n : Int) :
    inWidth w false n = true ↔ -2 ^ (w - 1) ≤ n ∧ n < 2 ^ (w - 1) := by
  show (decide (-((2 ^ (w - 1) : Nat) : Int) ≤ n) && decide (n < (2 ^ (w - 1) : Nat))) = true ↔ _
  rw [Bool.and_eq_true, decide_eq_true_iff, decide_eq_true_iff, Int.natCast_pow]
  rfl

/-- Without a sign, `w` bits hold the integers from zero on that are below `2 ^ w`. -/
theorem inWidth_unsigned_iff (w : Nat) (n : Int) :
    inWidth w true n = true ↔ 0 ≤ n ∧ n < (2 ^ w : Nat) := by
  show (decide (0 ≤ n) && decide (n < (2 ^ w : Nat))) = true ↔ _
  rw [Bool.and_eq_true, decide_eq_true_iff, decide_eq_true_iff]

/-- The integers in the range of a width are those that a word is read as. -/
theorem inWidth_iff (hpos : 0 < w) (unsigned : Bool) (n : Int) :
    inWidth w unsigned n = true ↔ ∃ x : BitVec w, reading unsigned x = n := by
  cases unsigned with
  | false =>
    rw [inWidth_signed_iff]
    constructor
    · rintro ⟨hle, hlt⟩
      exact ⟨.ofInt w n, BitVec.toInt_ofInt_eq_self hpos hle hlt⟩
    · rintro ⟨x, rfl⟩
      exact ⟨BitVec.le_toInt x, BitVec.toInt_lt⟩
  | true =>
    rw [inWidth_unsigned_iff]
    constructor
    · rintro ⟨hle, hlt⟩
      obtain ⟨k, rfl⟩ := Int.eq_ofNat_of_zero_le hle
      refine ⟨.ofNat w k, congrArg Nat.cast ?_⟩
      rw [BitVec.toNat_ofNat, Nat.mod_eq_of_lt (Int.ofNat_lt.1 hlt)]
    · rintro ⟨x, rfl⟩
      exact ⟨Int.natCast_nonneg _, Int.ofNat_lt.2 x.isLt⟩

/-- The result that a checked operator compares with is that of the integers. -/
theorem RingOp.exactResult? (op : RingOp) (m n : Int) :
    Hotswap.exactResult? op.binary m n = some (op.on m n) := by
  cases op <;> rfl

/-- A checked operator gives the word of the exact result if that is in the range. -/
theorem computes_checked (h : Operands a b w x y) (op : RingOp) (unsigned : Bool) :
    Computes w (checked op.binary unsigned a b)
      (if inWidth w unsigned (op.on (reading unsigned x) (reading unsigned y)) then
        .ok (BitVec.ofInt w (op.on (reading unsigned x) (reading unsigned y)))
      else .error (.overflow op.binary.symbol)) := by
  obtain ⟨p, hp, hwords⟩ := h
  unfold checked
  rw [hp]
  cases hwords with
  | int32 x y =>
    dsimp only
    rw [op.exactResult?]
    exact .ite Iff.rfl (.ok (.int32 _)) (.error _)
  | int64 x y =>
    dsimp only
    rw [op.exactResult?]
    exact .ite Iff.rfl (.ok (.int64 _)) (.error _)

/-- What a checked operator gives for two values in words `x` and `y`, read with a sign or
without. -/
structure CheckedOn (op : RingOp) (unsigned : Bool) (a b : Value) (w : Nat) (x y : BitVec w) :
    Prop where
  /-- There is a result exactly if the exact one is what some word is read as. -/
  isOk_iff : (∃ r, checked op.binary unsigned a b = .ok r) ↔
    ∃ z : BitVec w, reading unsigned z = op.on (reading unsigned x) (reading unsigned y)
  /-- The result is the exact one, and that of the operator that is not checked. -/
  eq_arith {r : Value} (h : checked op.binary unsigned a b = .ok r) :
    arith op.binary a b = .ok r ∧ ∃ z : BitVec w, r.IsWord w z ∧
      reading unsigned z = op.on (reading unsigned x) (reading unsigned y)
  /-- Otherwise the error names the operator. -/
  overflow
    (h : ¬∃ z : BitVec w, reading unsigned z = op.on (reading unsigned x) (reading unsigned y)) :
    checked op.binary unsigned a b = .error (.overflow op.binary.symbol)

/-- **Checked operators fail exactly if the exact result does not fit.** If it fits, they give what
the operators that wrap around give. -/
theorem checkedOn (op : RingOp) (unsigned : Bool) (ha : a.IsInteger v m) (hb : b.IsInteger v' n) :
    CheckedOn op unsigned a b (min v v') (.ofInt _ m) (.ofInt _ n) := by
  let x := BitVec.ofInt (min v v') m
  let y := BitVec.ofInt (min v v') n
  let k := op.on (reading unsigned x) (reading unsigned y)
  have hpos : 0 < min v v' := Nat.lt_min.2 ⟨ha.width.1, hb.width.1⟩
  have hchecked := computes_checked (operands ha hb) op unsigned
  by_cases hfits : ∃ z : BitVec (min v v'), reading unsigned z = k
  · rw [if_pos ((inWidth_iff hpos unsigned k).2 hfits)] at hchecked
    have hword : wordOp op.binary x y = .ok (BitVec.ofInt _ k) := by
      rw [← op.wordOp_ofInt, ofInt_reading, ofInt_reading]
    have harith := computes_arith (operands ha hb) op.binary
    rw [hword] at harith
    obtain ⟨r, hr, hrz⟩ := hchecked.givesWord
    obtain ⟨r', hr', hrz'⟩ := harith.givesWord
    obtain rfl := hrz.unique hrz'
    obtain ⟨z, hz⟩ := hfits
    have hkz : BitVec.ofInt _ k = z := by rw [← hz, ofInt_reading]
    rw [hkz] at hrz
    constructor
    case isOk_iff => exact iff_of_true ⟨r, hr⟩ ⟨z, hz⟩
    case eq_arith =>
      intro r' h
      rw [hr] at h
      cases h
      exact ⟨hr', z, hrz, hz⟩
    case overflow => exact fun h => absurd ⟨z, hz⟩ h
  · rw [if_neg (mt (inWidth_iff hpos unsigned k).1 hfits)] at hchecked
    have herror := hchecked.eq_error_iff.2 rfl
    have hnone : ¬∃ r, checked op.binary unsigned a b = .ok r := by
      rintro ⟨r, hr⟩
      rw [herror] at hr
      cases hr
    constructor
    case isOk_iff => exact iff_of_false hnone hfits
    case eq_arith => exact fun h => absurd ⟨_, h⟩ hnone
    case overflow => exact fun _ => herror

/-- Minus one and one, read without a sign, have no sum in 32 bits. With a sign they have. -/
theorem checkedOn_minusOne :
    checked .add true (.int8 (-1)) (.int64 1) = .error (.overflow "+") ∧
      ∃ r, checked .add false (.int8 (-1)) (.int64 1) = .ok r ∧
        arith .add (.int8 (-1)) (.int64 1) = .ok r := by
  have hunsigned := checkedOn .add true (.int8 (-1)) (.int64 1)
  have hsigned := checkedOn .add false (.int8 (-1)) (.int64 1)
  constructor
  · apply hunsigned.overflow
    rintro ⟨z, hz⟩
    have hlt : reading true z < 2 ^ 32 := Int.ofNat_lt.2 z.isLt
    rw [hz] at hlt
    exact absurd hlt (by decide)
  · obtain ⟨r, hr⟩ := hsigned.isOk_iff.2 ⟨0, by decide⟩
    exact ⟨r, hr, (hsigned.eq_arith hr).1⟩

end Hotswap
