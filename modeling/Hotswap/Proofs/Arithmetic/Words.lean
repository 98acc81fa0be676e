import Hotswap.Arithmetic
import Mathlib

/-!
# Operators on words

The operators on integers exist twice, with 32 bits and with 64. `wordOp` says both at once, for
words of any width, and `map_toBitVec_intOp32` and `map_toBitVec_intOp64` say that it is what they
do. What the operators mean is then shown once, for `wordOp`:

* sums, differences and products are those of any integers that the words stand for
  (`RingOp.wordOp_ofInt`);
* a division fails for a divisor of zero and for the one quotient that is too large, and is exact
  otherwise (`divideWord_eq_divideByZero_iff`, `divideWord_eq_overflow_iff`, `toInt_sdiv`);
* a shift goes by the amount modulo the width (`shiftAmount_ofInt`).

A word in another width has zeros or its sign in front, and `setWidth_eq_signExtend_iff` says when
that is the same.
-/

namespace Hotswap

variable {w : Nat}

/-! ## Operators -/

/-- The quotient or the remainder of two words, unless there is none. -/
def divideWord (op : BinaryOp) (x y result : BitVec w) : Except Error (BitVec w) :=
  if y.toInt = 0 then .error .divideByZero
  else if x.toInt = -2 ^ (w - 1) ∧ y.toInt = -1 then .error (.overflow op.symbol)
  else .ok result

/-- The number of places that a shift by a word goes. -/
def shiftAmount (y : BitVec w) : Nat := (y.toInt % w).toNat

/-- An operator on words. -/
def wordOp (op : BinaryOp) (x y : BitVec w) : Except Error (BitVec w) :=
  match op with
  | .add => .ok (x + y)
  | .sub => .ok (x - y)
  | .mul => .ok (x * y)
  | .div => divideWord op x y (x.sdiv y)
  | .rem => divideWord op x y (x.srem y)
  | .and => .ok (x &&& y)
  | .or => .ok (x ||| y)
  | .xor => .ok (x ^^^ y)
  | .shl => .ok (x <<< shiftAmount y)
  | .shr => .ok (x.sshiftRight (shiftAmount y))
  | .shrUn => .ok (x >>> shiftAmount y)

/-! ## Words and integers -/

/-- The word of an integer stands for it modulo the number of words. -/
theorem toInt_ofInt_modEq (w : Nat) (n : Int) : (BitVec.ofInt w n).toInt ≡ n [ZMOD 2 ^ w] := by
  rw [BitVec.toInt_ofInt]
  exact Int.bmod_emod

/-- A word is that of its reading without a sign. -/
theorem ofInt_toNat (x : BitVec w) : BitVec.ofInt w x.toNat = x := by
  rw [BitVec.ofInt_natCast, BitVec.ofNat_toNat, BitVec.setWidth_eq]

/-! ## Words of two widths -/

/-- The word of an integer has the low bits of any wider word of it. -/
theorem ofInt_toInt_ofInt {s : Nat} (h : w ≤ s) (n : Int) :
    BitVec.ofInt w (BitVec.ofInt s n).toInt = BitVec.ofInt w n := by
  have hdvd : 2 ^ w ∣ 2 ^ s := Nat.pow_dvd_pow 2 h
  apply BitVec.eq_of_toInt_eq
  rw [BitVec.toInt_ofInt, BitVec.toInt_ofInt, BitVec.toInt_ofInt, Int.bmod_bmod_of_dvd hdvd]

/-- Cutting the word of an integer gives the shorter word of it. -/
theorem setWidth_ofInt {s : Nat} (h : w ≤ s) (n : Int) :
    (BitVec.ofInt s n).setWidth w = BitVec.ofInt w n := by
  rw [← BitVec.signExtend_eq_setWidth_of_le _ h]
  exact ofInt_toInt_ofInt h n

/-- The word of the reading without a sign is the word cut or filled with zeros. -/
theorem ofInt_toNat_eq_setWidth (w : Nat) {s : Nat} (x : BitVec s) :
    BitVec.ofInt w x.toNat = x.setWidth w := by
  rw [BitVec.ofInt_natCast, BitVec.ofNat_toNat]

/-- Putting zeros in front of a word is repeating its sign, unless the sign is negative and there is
something in front. -/
theorem setWidth_eq_signExtend_iff {s : Nat} {x : BitVec s} :
    x.setWidth w = x.signExtend w ↔ w ≤ s ∨ 0 ≤ x.toInt := by
  constructor
  · intro h
    by_contra hneither
    obtain ⟨hwide, hnegative⟩ := not_or.1 hneither
    have hlt : s < w := Nat.not_le.1 hwide
    -- the highest bit of the wider word tells the two apart
    have hzeros : (x.setWidth w).msb = false := by
      rw [BitVec.msb_setWidth, BitVec.getLsbD_of_ge _ _ (Nat.le_sub_one_of_lt hlt), Bool.and_false]
    have hsigns : (x.signExtend w).msb = true := by
      rw [BitVec.msb_eq_toInt, BitVec.toInt_signExtend_of_le (Nat.le_of_lt hlt)]
      exact decide_eq_true (Int.not_le.1 hnegative)
    rw [h, hsigns] at hzeros
    cases hzeros
  · rintro (hle | hnonneg)
    · exact (BitVec.signExtend_eq_setWidth_of_le x hle).symm
    · have hmsb : x.msb = false := by
        rw [BitVec.msb_eq_toInt]
        exact decide_eq_false (Int.not_lt.2 hnonneg)
      exact (BitVec.signExtend_eq_setWidth_of_msb_false hmsb).symm

/-! ## The amount of a shift -/

/-- The word of an integer stands for it modulo the width as well. -/
theorem toInt_ofInt_emod (hw : w ∣ 2 ^ w) (n : Int) : (BitVec.ofInt w n).toInt % w = n % w := by
  have hdvd : (w : Int) ∣ (2 ^ w : Nat) := Int.natCast_dvd_natCast.2 hw
  rw [BitVec.toInt_ofInt, ← Int.emod_emod_of_dvd _ hdvd, Int.bmod_emod,
    Int.emod_emod_of_dvd _ hdvd]

/-- A shift goes as far as the integer says modulo the width. -/
theorem shiftAmount_ofInt (hw : w ∣ 2 ^ w) (n : Int) :
    shiftAmount (BitVec.ofInt w n) = (n % w).toNat := by
  unfold shiftAmount
  rw [toInt_ofInt_emod hw]

/-- The remainder without a sign. -/
theorem toNat_mod_eq_shiftAmount (hw : w ∣ 2 ^ w) (y : BitVec w) : y.toNat % w = shiftAmount y := by
  unfold shiftAmount
  rw [← ofInt_toNat y, toInt_ofInt_emod hw, ofInt_toNat, ← Int.natCast_mod, Int.toNat_natCast]

/-- The remainder with the sign of the divisor. -/
theorem toNat_smod_eq_shiftAmount {d : BitVec w} (hpos : 0 < w) (hd : d.toInt = w) (y : BitVec w) :
    (y.smod d).toNat = shiftAmount y := by
  have hint : (y.smod d).toInt = y.toInt % w := by
    rw [BitVec.toInt_smod, hd, Int.fmod_eq_emod_of_nonneg _ (Int.natCast_nonneg w)]
  have hnonneg : ¬(y.smod d).toInt < 0 := by
    rw [hint]
    exact Int.not_lt.2 (Int.emod_nonneg _ (Int.natCast_ne_zero.2 (Nat.ne_of_gt hpos)))
  unfold shiftAmount
  rw [← hint, BitVec.toNat_toInt_of_msb]
  rw [BitVec.msb_eq_toInt, decide_eq_false hnonneg]

/-! ## The two widths -/

/-- A quotient or remainder of 32 bits is one of words. -/
theorem map_toBitVec_divide32 (op : BinaryOp) (x y result : Int32) :
    (divide32 op x y result).map Int32.toBitVec =
      divideWord op x.toBitVec y.toBitVec result.toBitVec := by
  have hzero : y.toBitVec.toInt = 0 ↔ y = 0 := Int32.toInt_inj (y := 0)
  have hmin : x.toBitVec.toInt = -2 ^ (32 - 1) ↔ x = Int32.minValue :=
    Int32.toInt_inj (y := Int32.minValue)
  have hone : y.toBitVec.toInt = -1 ↔ y = -1 := Int32.toInt_inj (y := -1)
  have hword : divideWord op x.toBitVec y.toBitVec result.toBitVec =
      if y = 0 then .error .divideByZero
      else if x = Int32.minValue ∧ y = -1 then .error (.overflow op.symbol)
      else .ok result.toBitVec :=
    if_congr hzero rfl (if_congr (and_congr hmin hone) rfl rfl)
  rw [hword]
  unfold divide32
  split_ifs <;> rfl

/-- A quotient or remainder of 64 bits is one of words. -/
theorem map_toBitVec_divide64 (op : BinaryOp) (x y result : Int64) :
    (divide64 op x y result).map Int64.toBitVec =
      divideWord op x.toBitVec y.toBitVec result.toBitVec := by
  have hzero : y.toBitVec.toInt = 0 ↔ y = 0 := Int64.toInt_inj (y := 0)
  have hmin : x.toBitVec.toInt = -2 ^ (64 - 1) ↔ x = Int64.minValue :=
    Int64.toInt_inj (y := Int64.minValue)
  have hone : y.toBitVec.toInt = -1 ↔ y = -1 := Int64.toInt_inj (y := -1)
  have hword : divideWord op x.toBitVec y.toBitVec result.toBitVec =
      if y = 0 then .error .divideByZero
      else if x = Int64.minValue ∧ y = -1 then .error (.overflow op.symbol)
      else .ok result.toBitVec :=
    if_congr hzero rfl (if_congr (and_congr hmin hone) rfl rfl)
  rw [hword]
  unfold divide64
  split_ifs <;> rfl

/-- **An operator on 32 bits is the operator on words of that width.** -/
theorem map_toBitVec_intOp32 (op : BinaryOp) (x y : Int32) :
    (intOp32 op x y).map Int32.toBitVec = wordOp op x.toBitVec y.toBitVec := by
  have hamount : (y.toBitVec.smod 32).toNat = shiftAmount y.toBitVec :=
    toNat_smod_eq_shiftAmount (by decide) (by decide) _
  cases op with
  | div => exact map_toBitVec_divide32 .div x y (x / y)
  | rem => exact map_toBitVec_divide32 .rem x y (x % y)
  | shl =>
    show Except.ok (x.toBitVec <<< (y.toBitVec.smod 32).toNat) = _
    rw [hamount]
    rfl
  | shr =>
    show Except.ok (x.toBitVec.sshiftRight (y.toBitVec.smod 32).toNat) = _
    rw [hamount]
    rfl
  | shrUn =>
    show Except.ok (x.toBitVec >>> (y.toBitVec.toNat % 32)) = _
    rw [toNat_mod_eq_shiftAmount (by decide)]
    rfl
  | _ => rfl

/-- **An operator on 64 bits is the operator on words of that width.** -/
theorem map_toBitVec_intOp64 (op : BinaryOp) (x y : Int64) :
    (intOp64 op x y).map Int64.toBitVec = wordOp op x.toBitVec y.toBitVec := by
  have hamount : (y.toBitVec.smod 64).toNat = shiftAmount y.toBitVec :=
    toNat_smod_eq_shiftAmount (by decide) (by decide) _
  cases op with
  | div => exact map_toBitVec_divide64 .div x y (x / y)
  | rem => exact map_toBitVec_divide64 .rem x y (x % y)
  | shl =>
    show Except.ok (x.toBitVec <<< (y.toBitVec.smod 64).toNat) = _
    rw [hamount]
    rfl
  | shr =>
    show Except.ok (x.toBitVec.sshiftRight (y.toBitVec.smod 64).toNat) = _
    rw [hamount]
    rfl
  | shrUn =>
    show Except.ok (x.toBitVec >>> (y.toBitVec.toNat % 64)) = _
    rw [toNat_mod_eq_shiftAmount (by decide)]
    rfl
  | _ => rfl

/-! ## Exact results -/

/-- An operator that words share with the integers. -/
inductive RingOp where
  /-- Addition. -/
  | add
  /-- Subtraction. -/
  | sub
  /-- Multiplication. -/
  | mul

namespace RingOp

/-- The operator among all. -/
def binary : RingOp → BinaryOp
  | add => .add
  | sub => .sub
  | mul => .mul

/-- The operator on integers. -/
def on : RingOp → Int → Int → Int
  | add, m, n => m + n
  | sub, m, n => m - n
  | mul, m, n => m * n

/-- The word of the exact result is what the operator gives on the words of the integers. -/
theorem wordOp_ofInt (op : RingOp) (m n : Int) :
    wordOp op.binary (BitVec.ofInt w m) (BitVec.ofInt w n) = .ok (BitVec.ofInt w (op.on m n)) := by
  cases op with
  | add => exact congrArg Except.ok (BitVec.ofInt_add m n).symm
  | sub =>
    show Except.ok (BitVec.ofInt w m - BitVec.ofInt w n) = .ok (BitVec.ofInt w (m - n))
    rw [BitVec.sub_eq_add_neg, Int.sub_eq_add_neg, BitVec.ofInt_add, BitVec.ofInt_neg]
  | mul => exact congrArg Except.ok (BitVec.ofInt_mul m n).symm

end RingOp

section division

variable {op : BinaryOp} {x y result : BitVec w}

/-- Division by zero is reported exactly for the divisor zero. -/
theorem divideWord_eq_divideByZero_iff :
    divideWord op x y result = .error .divideByZero ↔ y.toInt = 0 := by
  unfold divideWord
  split_ifs <;> simp_all

/-- An overflow is reported exactly for the least integer divided by minus one. -/
theorem divideWord_eq_overflow_iff :
    divideWord op x y result = .error (.overflow op.symbol) ↔
      x.toInt = -2 ^ (w - 1) ∧ y.toInt = -1 := by
  unfold divideWord
  split_ifs <;> simp_all

/-- Apart from these there is a result. -/
theorem divideWord_of_exact (hzero : y.toInt ≠ 0)
    (hmin : ¬(x.toInt = -2 ^ (w - 1) ∧ y.toInt = -1)) :
    divideWord op x y result = .ok result := by
  unfold divideWord
  rw [if_neg hzero, if_neg hmin]

/-- The quotient of two words is that of the integers, truncated, if it is not too large. -/
theorem toInt_sdiv (hpos : 0 < w) (h : ¬(x.toInt = -2 ^ (w - 1) ∧ y.toInt = -1)) :
    (x.sdiv y).toInt = x.toInt.tdiv y.toInt := by
  apply BitVec.toInt_sdiv_of_ne_or_ne
  rw [← not_and_or]
  rintro ⟨rfl, rfl⟩
  apply h
  constructor
  · exact BitVec.toInt_intMin_of_pos hpos
  · rw [BitVec.neg_one_eq_allOnes, BitVec.toInt_allOnes, if_pos hpos]

end division

end Hotswap
