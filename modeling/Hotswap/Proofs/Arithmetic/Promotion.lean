import Hotswap.Proofs.Arithmetic.Conversions
import Hotswap.Proofs.Machine.Operators

/-!
# Integers of 8 bits

Operators take an integer of 8 bits for the same integer of 32 bits. That is said here of one
operand, with the other one arbitrary: the outcome of an operator is the same with the one and with
the other, up to the type that a mismatch names (`SameResult`). For two operands it follows one
after the other.

The main statement is `actsPromoted`. There is one operator that does not promote: a checked
conversion that does not read the sign takes an integer of 8 bits with its sign. So it does what the
one that reads the sign does, and it is told exactly when that makes a difference.
-/

namespace Hotswap

variable {α : Type} {a a' b b' : Value}

/-! ## Outcomes -/

/-- Two outcomes are the same, except that a mismatch may name other types. -/
inductive SameResult : Except Error α → Except Error α → Prop
  /-- The same result or the same error. -/
  | refl (r : Except Error α) : SameResult r r
  /-- A mismatch of the same operator. -/
  | mismatch (operator : String) (a b a' b' : Value) :
      SameResult (.error (mismatch operator a b)) (.error (mismatch operator a' b'))

/-- Two values are the same outcome only if they are equal. -/
theorem sameResult_ok {x y : α} (h : SameResult (.ok x) (.ok y)) : x = y := by
  cases h
  rfl

/-- Same outcomes succeed together. -/
theorem SameResult.isOk {r r' : Except Error α} (h : SameResult r r') : r.isOk = r'.isOk := by
  cases h <;> rfl

/-! ## Promoted operands -/

/-- A value is another one, or is that one promoted from 8 bits to 32. -/
inductive Promotes : Value → Value → Prop
  /-- The same value. -/
  | refl (v : Value) : Promotes v v
  /-- An integer of 8 bits and the same integer of 32 bits. -/
  | int8 (n : Int8) : Promotes (.int8 n) (.int32 n.toInt32)

/-- The two values are the same number. -/
theorem Promotes.ofValue? (h : Promotes a a') : Num.ofValue? a = Num.ofValue? a' := by
  cases h <;> rfl

/-- They have the same bits as operands of a bitwise operator. -/
theorem Promotes.bits? (h : Promotes a a') : Hotswap.bits? a = Hotswap.bits? a' := by
  cases h <;> rfl

/-- They are the same integer of 64 bits. -/
theorem Promotes.toInt64? (h : Promotes a a') : a.toInt64? = a'.toInt64? := by
  cases h with
  | refl => rfl
  | int8 n => exact congrArg some (Int8.toInt64_toInt32 n).symm

/-- They are the same floating-point number. -/
theorem Promotes.toFloat? (h : Promotes a a') : a.toFloat? = a'.toFloat? := by
  cases h with
  | refl => rfl
  | int8 n => exact congrArg (Option.map (·.toFloat)) (Promotes.int8 n).toInt64?

/-- They are printed alike, which is what a concatenation reads. -/
theorem Promotes.render (h : Promotes a a') : a.render = a'.render := by
  cases h with
  | refl => rfl
  | int8 n => exact congrArg toString (Int8.toInt_toInt32 n).symm

/-- So promoted operands meet in the same pair of numbers. -/
theorem Promotes.ofValues? (ha : Promotes a a') (hb : Promotes b b') :
    NumPair.ofValues? a b = NumPair.ofValues? a' b' := by
  unfold NumPair.ofValues?
  rw [ha.ofValue?, hb.ofValue?]

/-! ## Operators on two operands -/

section binary

variable (ha : Promotes a a') (hb : Promotes b b')

include ha hb

/-- Arithmetic reads its operands as a pair of numbers. -/
theorem sameResult_arith (op : BinaryOp) : SameResult (arith op a b) (arith op a' b') := by
  unfold arith
  rw [ha.ofValues? hb]
  cases NumPair.ofValues? a' b' with
  | none => exact .mismatch ..
  | some p =>
    cases p with
    | int32 x y => exact .refl _
    | int64 x y => exact .refl _
    | float32 x y =>
      dsimp only
      cases floatOp? op x.toFloat y.toFloat with
      | none => exact .mismatch ..
      | some r => exact .refl _
    | float64 x y =>
      dsimp only
      cases floatOp? op x y with
      | none => exact .mismatch ..
      | some r => exact .refl _

/-- The checked operators read their operands as a pair of numbers too. -/
theorem sameResult_checked (op : BinaryOp) (unsigned : Bool) :
    SameResult (checked op unsigned a b) (checked op unsigned a' b') := by
  have harith := sameResult_arith ha hb op
  unfold checked
  rw [ha.ofValues? hb]
  cases NumPair.ofValues? a' b' with
  | none => exact .mismatch ..
  | some p =>
    cases p with
    | int32 x y =>
      cases op with
      | add | sub | mul => exact .refl _
      | _ => exact .mismatch ..
    | int64 x y =>
      cases op with
      | add | sub | mul => exact .refl _
      | _ => exact .mismatch ..
    | float32 x y => exact harith
    | float64 x y => exact harith

/-- So do the unsigned division and remainder. -/
theorem sameResult_divideUnsigned (op : BinaryOp) :
    SameResult (divideUnsigned op a b) (divideUnsigned op a' b') := by
  have harith := sameResult_arith ha hb op
  unfold divideUnsigned
  rw [ha.ofValues? hb]
  cases NumPair.ofValues? a' b' with
  | none => exact .mismatch ..
  | some p =>
    cases p with
    | int32 x y => exact .refl _
    | int64 x y => exact .refl _
    | float32 x y => exact harith
    | float64 x y => exact harith

/-- An addition is arithmetic or a concatenation; an operand of 8 bits next to a string is printed.
-/
theorem sameResult_add : SameResult (add a b) (add a' b') := by
  have harith := sameResult_arith ha hb .add
  have hrender := ha.render
  have hrender' := hb.render
  cases ha with
  | int8 n =>
    cases hb with
    | int8 m => exact harith
    | refl =>
      cases b with
      | string s =>
        unfold add
        rw [hrender]
        exact .refl _
      | _ => exact harith
  | refl =>
    cases hb with
    | refl => exact .refl _
    | int8 n =>
      cases a with
      | string s =>
        unfold add
        rw [hrender']
        exact .refl _
      | _ => exact harith

/-- The bitwise operators read bits, unless both operands are truth values. -/
theorem sameResult_bitwise (op : BinaryOp) :
    SameResult (bitwise op a b) (bitwise op a' b') := by
  have hbits := ha.bits?
  have hbits' := hb.bits?
  unfold bitwise
  cases ha with
  | int8 n =>
    -- one operand is no truth value, so both are taken as numbers
    dsimp only
    rw [hbits, hbits']
    split
    all_goals first
      | exact .refl _
      | exact .mismatch ..
  | refl =>
    cases hb with
    | refl => exact .refl _
    | int8 n =>
      cases a
      all_goals first
        | exact .refl _
        | exact .mismatch ..

/-- A comparison reads numbers, and compares everything else by kind; an integer of 8 bits is never
of another kind. -/
theorem sameResult_compareValues (operator : String) :
    SameResult (compareValues operator a b) (compareValues operator a' b') := by
  unfold compareValues
  rw [ha.toInt64?, hb.toInt64?, ha.toFloat?, hb.toFloat?]
  split
  · exact .refl _
  · split
    · exact .refl _
    · exact .mismatch ..

/-- So every operator on two operands takes them as the promoted ones. -/
theorem IsBinary.sameResult {operation : Value → Value → Except Error Value}
    (h : IsBinary operation) : SameResult (operation a b) (operation a' b') := by
  cases h with
  | add => exact sameResult_add ha hb
  | arith op => exact sameResult_arith ha hb op
  | bitwise op => exact sameResult_bitwise ha hb op
  | checked op unsigned => exact sameResult_checked ha hb op unsigned
  | divideUnsigned op => exact sameResult_divideUnsigned ha hb op

end binary

/-! ## Conversions without the sign -/

/-- Only integers of 32 and of 64 bits are ever read without their sign. -/
theorem sourceInteger_int8 (c : Conversion) (unsigned : Bool) (n : Int8) :
    sourceInteger c unsigned (.int8 n) = .ok n.toInt :=
  congrArg Except.ok (Int8.toInt_toInt64 n)

/-- A checked conversion takes an integer of 8 bits as the one that reads the sign takes the same
integer of 32 bits. -/
theorem convertChecked_int8 (c : Conversion) (unsigned : Bool) (n : Int8) :
    convertChecked c unsigned (.int8 n) = convertChecked c false (.int32 n.toInt32) := by
  have hpromoted : sourceInteger c false (.int32 n.toInt32) = .ok n.toInt := by
    rw [← Int8.toInt_toInt32 n]
    exact sourceInteger_signed c (.int32 _)
  rw [convertChecked_eq (sourceInteger_int8 c unsigned n), convertChecked_eq hpromoted]

/-- Two checked conversions to one target have the same outcome exactly if they start from the same
integer or both fail. -/
theorem sameResult_convertChecked_iff {c : Conversion} {w : Nat} {unsigned source source' : Bool}
    {m n : Int} (hc : c.IsInteger w unsigned) (hm : sourceInteger c source a = .ok m)
    (hn : sourceInteger c source' b = .ok n) :
    SameResult (convertChecked c source a) (convertChecked c source' b) ↔
      m = n ∨ c.fits m = false ∧ c.fits n = false := by
  constructor
  · intro h
    have hread : ∀ k, c.fits k = true → reading unsigned (BitVec.ofInt w k) = k := by
      intro k hk
      obtain ⟨z, hz⟩ := (hc.fits_iff k).1 hk
      rw [← hz, ofInt_reading]
    rw [convertChecked_eq hm, convertChecked_eq hn] at h
    by_cases hfits : c.fits m = true
    · by_cases hfits' : c.fits n = true
      · rw [if_pos hfits, if_pos hfits'] at h
        left
        rw [← hread m hfits, (convertNumber_inj hc none m n).1 (sameResult_ok h), hread n hfits']
      · rw [if_pos hfits, if_neg hfits'] at h
        cases h.isOk
    · by_cases hfits' : c.fits n = true
      · rw [if_neg hfits, if_pos hfits'] at h
        cases h.isOk
      · exact .inr ⟨Bool.eq_false_iff.2 hfits, Bool.eq_false_iff.2 hfits'⟩
  · rintro (rfl | ⟨hfits, hfits'⟩)
    · rw [convertChecked_eq hm, convertChecked_eq hn]
      exact .refl _
    · rw [convertChecked_eq hm, convertChecked_eq hn, if_neg (Bool.eq_false_iff.1 hfits),
        if_neg (Bool.eq_false_iff.1 hfits')]
      exact .refl _

/-- Without its sign, a promoted integer reads as it is or `2 ^ 32` above. -/
theorem toNat_promoted (n : Int8) :
    (n.toInt32.toBitVec.toNat : Int) = if 0 ≤ n.toInt then n.toInt else n.toInt + 2 ^ 32 := by
  have hint : n.toInt32.toBitVec.toInt = n.toInt := Int8.toInt_toInt32 n
  have hcond := BitVec.toInt_eq_toNat_cond n.toInt32.toBitVec
  split at hcond <;> split <;> omega

/-- Neither reading of a negative integer of 8 bits fits exactly the unsigned targets below 32
bits. -/
theorem fits_readings_iff {c : Conversion} {w : Nat} {unsigned : Bool} (hc : c.IsInteger w unsigned)
    {m : Int} (hlow : -2 ^ 7 ≤ m) (hnegative : m < 0) :
    c.fits m = false ∧ c.fits (m + 2 ^ 32) = false ↔ unsigned = true ∧ w < 32 := by
  rw [hc.fits_eq, hc.fits_eq, ← Bool.not_eq_true, ← Bool.not_eq_true]
  cases hc with
  | i1 | i2 | i4 | i8 | i =>
    rw [inWidth_signed_iff, inWidth_signed_iff]
    refine iff_of_false ?_ (fun h => Bool.false_ne_true h.1)
    omega
  | u1 | u2 | u4 | u8 | u =>
    rw [inWidth_unsigned_iff, inWidth_unsigned_iff, and_iff_right rfl]
    omega

/-- What the operators make of an integer of 8 bits is what they make of the integer promoted to 32
bits, beside any other operand. -/
structure ActsPromoted (n : Int8) (b : Value) : Prop where
  /-- An operator on two operands, of which it is the first. -/
  left {operation : Value → Value → Except Error Value} (h : IsBinary operation) :
    SameResult (operation (.int8 n) b) (operation (.int32 n.toInt32) b)
  /-- An operator on two operands, of which it is the second. -/
  right {operation : Value → Value → Except Error Value} (h : IsBinary operation) :
    SameResult (operation b (.int8 n)) (operation b (.int32 n.toInt32))
  /-- The order, as the first operand. -/
  compare_left (operator : String) :
    SameResult (compareValues operator (.int8 n) b) (compareValues operator (.int32 n.toInt32) b)
  /-- The order, as the second operand. -/
  compare_right (operator : String) :
    SameResult (compareValues operator b (.int8 n)) (compareValues operator b (.int32 n.toInt32))
  /-- The opposite. -/
  negate_eq : negate (.int8 n) = negate (.int32 n.toInt32)
  /-- The complement. -/
  complement_eq : complement (.int8 n) = complement (.int32 n.toInt32)
  /-- The conversions. -/
  convert_eq (c : Conversion) : convert c (.int8 n) = convert c (.int32 n.toInt32)
  /-- The checked conversions that read the sign. -/
  convertChecked_eq (c : Conversion) :
    convertChecked c false (.int8 n) = convertChecked c false (.int32 n.toInt32)
  /-- The checked conversions that do not read the sign read that of an integer of 8 bits. -/
  unsigned_eq (c : Conversion) :
    convertChecked c true (.int8 n) = convertChecked c false (.int32 n.toInt32)
  /-- That makes a difference for negative integers and all targets but those that neither of the
  two readings fits. -/
  unsigned_iff {c : Conversion} {w : Nat} {unsigned : Bool} (hc : c.IsInteger w unsigned) :
    SameResult (convertChecked c true (.int8 n)) (convertChecked c true (.int32 n.toInt32)) ↔
      0 ≤ n.toInt ∨ unsigned = true ∧ w < 32

/-- **An integer of 8 bits acts as the integer of 32 bits**, except where a checked conversion does
not read the sign. -/
theorem actsPromoted (n : Int8) (b : Value) : ActsPromoted n b := by
  have hn := Promotes.int8 n
  have hb := Promotes.refl b
  constructor
  case left =>
    intro operation h
    exact h.sameResult hn hb
  case right =>
    intro operation h
    exact h.sameResult hb hn
  case compare_left => exact sameResult_compareValues hn hb
  case compare_right => exact sameResult_compareValues hb hn
  case negate_eq => rfl
  case complement_eq => rfl
  case convert_eq =>
    intro c
    rw [convert_eq c (.int8 n), convert_eq c (.int32 n.toInt32), Int8.toInt_toInt32]
  case convertChecked_eq =>
    intro c
    exact convertChecked_int8 c false n
  case unsigned_eq =>
    intro c
    exact convertChecked_int8 c true n
  case unsigned_iff =>
    intro c w unsigned hc
    rw [sameResult_convertChecked_iff hc (sourceInteger_int8 c true n)
      (sourceInteger_unsigned c (.int32 n.toInt32)), toNat_promoted]
    by_cases hsign : 0 ≤ n.toInt
    · rw [if_pos hsign]
      exact iff_of_true (.inl rfl) (.inl hsign)
    · have hne : n.toInt ≠ n.toInt + 2 ^ 32 := by omega
      rw [if_neg hsign, or_iff_right hne, or_iff_right hsign]
      exact fits_readings_iff hc (Int8.le_toInt n) (Int.not_le.1 hsign)

/-- Minus one in 8 bits does not fit the unsigned integers of 32 bits. In 32 bits it does, as the
largest of them, if its sign is not read. -/
theorem actsPromoted_minusOne :
    convertChecked .u4 true (.int8 (-1)) = .error (.overflow "conv.u4") ∧
      convertChecked .u4 true (.int32 (-1)) = .ok (.int32 (-1)) ∧
      ¬SameResult (convertChecked .u4 true (.int8 (-1)))
        (convertChecked .u4 true (.int32 (Int8.toInt32 (-1)))) := by
  refine ⟨by decide +kernel, by decide +kernel, ?_⟩
  rw [(actsPromoted (-1) .null).unsigned_iff .u4]
  decide

end Hotswap
