import Hotswap.Arithmetic.Conversion
import Hotswap.Proofs.Arithmetic.Integers
import Hotswap.Proofs.Result

/-!
# Conversions of integers

What the conversions to integers make of an integer or of a truth value. A conversion keeps as many
low bits as its target has (`convertNumber_eq`), so all it does to an integer is decided by the
word of these bits, and two integers are converted alike exactly if these bits agree
(`convertNumber_inj`). A checked conversion does the same to the integer that it reads, provided
that this is in the range of the target (`convertChecked_eq`).

The two read integers alike if the checked conversion reads the sign: then it is lossless or fails
(`losslessOn`). A checked conversion that does not read the sign takes the word of the source with
zeros in front, where the unchecked one repeats the sign. `unsignedConversionOn` says that the two
agree unless the target is the wider one and the sign is negative.
-/

namespace Hotswap

variable {c : Conversion} {v r : Value} {w s : Nat} {x : BitVec s} {unsigned source : Bool}
  {m n : Int}

/-! ## Targets and sources -/

/-- The target of a conversion is the integers of a width, with a sign or without. The native width
is 64 bits. -/
inductive Conversion.IsInteger : Conversion → (w : Nat) → (unsigned : Bool) → Prop
  /-- Signed integers of 8 bits. -/
  | i1 : IsInteger .i1 8 false
  /-- Signed integers of 16 bits. -/
  | i2 : IsInteger .i2 16 false
  /-- Signed integers of 32 bits. -/
  | i4 : IsInteger .i4 32 false
  /-- Signed integers of 64 bits. -/
  | i8 : IsInteger .i8 64 false
  /-- Signed integers of the native width. -/
  | i : IsInteger .i 64 false
  /-- Unsigned integers of 8 bits. -/
  | u1 : IsInteger .u1 8 true
  /-- Unsigned integers of 16 bits. -/
  | u2 : IsInteger .u2 16 true
  /-- Unsigned integers of 32 bits. -/
  | u4 : IsInteger .u4 32 true
  /-- Unsigned integers of 64 bits. -/
  | u8 : IsInteger .u8 64 true
  /-- Unsigned integers of the native width. -/
  | u : IsInteger .u 64 true

/-- A value is read as an integer, with its sign. A truth value counts as zero or one. -/
inductive Value.Reads : Value → Int → Prop
  /-- A truth value. -/
  | bool (b : Bool) : Reads (.bool b) b.toInt
  /-- An integer of 8 bits. -/
  | int8 (n : Int8) : Reads (.int8 n) n.toInt
  /-- An integer of 32 bits. -/
  | int32 (n : Int32) : Reads (.int32 n) n.toInt
  /-- An integer of 64 bits. -/
  | int64 (n : Int64) : Reads (.int64 n) n.toInt

/-- A value is read as one integer only. -/
theorem Value.Reads.unique (hm : v.Reads m) (hn : v.Reads n) : m = n := by
  cases hm <;> cases hn <;> rfl

/-- What a value is read as is the integer of 64 bits that it counts as. -/
theorem Value.Reads.toInt64? (h : v.Reads n) : ∃ k, v.toInt64? = some k ∧ k.toInt = n := by
  cases h with
  | bool b => exact ⟨_, rfl, by cases b <;> rfl⟩
  | int8 k => exact ⟨_, rfl, Int8.toInt_toInt64 k⟩
  | int32 k => exact ⟨_, rfl, Int32.toInt_toInt64 k⟩
  | int64 k => exact ⟨k, rfl, rfl⟩

/-- Nothing that is read as an integer carries a floating-point number. -/
theorem Value.Reads.carriedFloat? (h : v.Reads n) : Hotswap.carriedFloat? v = none := by
  cases h <;> rfl

/-- A word is read with its sign. -/
theorem Value.IsWord.reads (h : v.IsWord s x) : v.Reads x.toInt := by
  cases h with
  | int32 k => exact .int32 k
  | int64 k => exact .int64 k

/-- With the sign, a checked conversion starts from the integer that a value is read as. -/
theorem sourceInteger_signed (c : Conversion) (h : v.Reads n) :
    sourceInteger c false v = .ok n := by
  cases h with
  | bool b => cases b <;> rfl
  | int8 k => exact congrArg Except.ok (Int8.toInt_toInt64 k)
  | int32 k => exact congrArg Except.ok (Int32.toInt_toInt64 k)
  | int64 k => rfl

/-- Without the sign, a checked conversion starts from the pattern of the bits. -/
theorem sourceInteger_unsigned (c : Conversion) (h : v.IsWord s x) :
    sourceInteger c true v = .ok x.toNat := by
  cases h <;> rfl

/-! ## The bits that are kept -/

/-- The value that a target keeps an integer as. Signed integers of 8 bits have a tag of their
own. -/
def Conversion.keep (c : Conversion) (n : Int) : Value :=
  match c with
  | .i1 => .int8 (.ofInt n)
  | .i8 | .u8 | .i | .u => .int64 (.ofInt n)
  | _ => .int32 (.ofInt n)

/-- A conversion keeps the word of the low bits. It is read with its sign where it fills the value
that keeps it, and otherwise as the target says. -/
theorem convertNumber_eq (hc : c.IsInteger w unsigned) (float : Option Float) (n : Int) :
    convertNumber c float (.ofInt n) =
      c.keep (reading (unsigned && decide (w < 32)) (BitVec.ofInt w n)) := by
  -- the integer comes in a word of 64 bits, and has its low bits there
  have low : ∀ {u v : Nat}, u ≤ v →
      BitVec.ofInt u (BitVec.ofInt v n).toInt = BitVec.ofInt u n := fun h => ofInt_toInt_ofInt h n
  cases hc with
  | i1 =>
    exact congrArg (fun z => Value.int8 (.ofBitVec z))
      ((low (by decide)).trans (low (Nat.le_refl 8)).symm)
  | i2 =>
    exact congrArg (fun z => Value.int32 (.ofBitVec (z.signExtend 32)))
      (low (by decide) : BitVec.ofInt 16 (BitVec.ofInt 64 n).toInt = BitVec.ofInt 16 n)
  | i4 | u4 =>
    exact congrArg (fun z => Value.int32 (.ofBitVec z))
      ((low (by decide)).trans (low (Nat.le_refl 32)).symm)
  | i8 | i | u8 | u =>
    exact congrArg (fun z => Value.int64 (.ofBitVec z)) (low (Nat.le_refl 64)).symm
  | u1 =>
    apply congrArg Value.int32
    apply Int32.toBitVec_inj.1
    show (Int64.ofInt n).toUInt64.toUInt8.toUInt32.toBitVec =
      BitVec.ofInt 32 (BitVec.ofInt 8 n).toNat
    rw [UInt8.toBitVec_toUInt32, UInt64.toBitVec_toUInt8, BitVec.ofInt_natCast, BitVec.ofNat_toNat]
    exact congrArg (BitVec.setWidth 32) (setWidth_ofInt (by decide) n)
  | u2 =>
    apply congrArg Value.int32
    apply Int32.toBitVec_inj.1
    show (Int64.ofInt n).toUInt64.toUInt16.toUInt32.toBitVec =
      BitVec.ofInt 32 (BitVec.ofInt 16 n).toNat
    rw [UInt16.toBitVec_toUInt32, UInt64.toBitVec_toUInt16, BitVec.ofInt_natCast,
      BitVec.ofNat_toNat]
    exact congrArg (BitVec.setWidth 32) (setWidth_ofInt (by decide) n)

/-- What keeps an integer is read as one with the same low bits. -/
theorem exists_reads_keep (hc : c.IsInteger w unsigned) (n : Int) :
    ∃ m, (c.keep n).Reads m ∧ BitVec.ofInt w m = BitVec.ofInt w n := by
  cases hc with
  | i1 => exact ⟨_, .int8 _, ofInt_toInt_ofInt (by decide) n⟩
  | i8 | i | u8 | u => exact ⟨_, .int64 _, ofInt_toInt_ofInt (by decide) n⟩
  | _ => exact ⟨_, .int32 _, ofInt_toInt_ofInt (by decide) n⟩

/-- Two integers are converted alike exactly if they have the same low bits. -/
theorem convertNumber_inj (hc : c.IsInteger w unsigned) (float : Option Float) (m n : Int) :
    convertNumber c float (.ofInt m) = convertNumber c float (.ofInt n) ↔
      BitVec.ofInt w m = BitVec.ofInt w n := by
  rw [convertNumber_eq hc, convertNumber_eq hc]
  constructor
  · intro h
    obtain ⟨k, hk, hkm⟩ := exists_reads_keep hc (reading (unsigned && decide (w < 32)) (.ofInt w m))
    obtain ⟨l, hl, hln⟩ := exists_reads_keep hc (reading (unsigned && decide (w < 32)) (.ofInt w n))
    rw [h] at hk
    rw [ofInt_reading] at hkm hln
    rw [← hkm, ← hln, hk.unique hl]
  · intro h
    rw [h]

/-- What a conversion gives is read as an integer with the low bits of the source. -/
theorem exists_reads_convertNumber (hc : c.IsInteger w unsigned) (float : Option Float) (n : Int) :
    ∃ m, (convertNumber c float (.ofInt n)).Reads m ∧ BitVec.ofInt w m = BitVec.ofInt w n := by
  obtain ⟨m, hm, hmn⟩ := exists_reads_keep hc (reading (unsigned && decide (w < 32)) (.ofInt w n))
  rw [ofInt_reading] at hmn
  rw [convertNumber_eq hc]
  exact ⟨m, hm, hmn⟩

/-! ## Conversions of a value -/

/-- An unchecked conversion converts the integer that a value is read as. -/
theorem convert_eq (c : Conversion) (h : v.Reads n) :
    convert c v = .ok (convertNumber c none (.ofInt n)) := by
  obtain ⟨k, hk, rfl⟩ := h.toInt64?
  unfold convert
  rw [h.carriedFloat?, hk, Int64.ofInt_toInt]

/-- No target is without bits. -/
theorem Conversion.IsInteger.pos (hc : c.IsInteger w unsigned) : 0 < w := by
  cases hc <;> decide

/-- What fits a target is what its width holds. -/
theorem Conversion.IsInteger.fits_eq (hc : c.IsInteger w unsigned) (n : Int) :
    c.fits n = inWidth w unsigned n := by
  cases hc <;> rfl

/-- What fits a target is what some word of it is read as. -/
theorem Conversion.IsInteger.fits_iff (hc : c.IsInteger w unsigned) (n : Int) :
    c.fits n = true ↔ ∃ z : BitVec w, reading unsigned z = n := by
  rw [hc.fits_eq, inWidth_iff hc.pos]

/-- A checked conversion converts the integer that it starts from, if that is what some word of the
target is read as. -/
theorem convertChecked_eq (h : sourceInteger c source v = .ok n) :
    convertChecked c source v =
      if c.fits n then .ok (convertNumber c none (.ofInt n)) else .error (.overflow c.name) := by
  unfold convertChecked
  rw [h]
  rfl

/-- A checked conversion has a result exactly where the integer that it starts from fits. -/
theorem exists_convertChecked_iff (hc : c.IsInteger w unsigned)
    (h : sourceInteger c source v = .ok n) :
    (∃ r, convertChecked c source v = .ok r) ↔ ∃ z : BitVec w, reading unsigned z = n := by
  rw [convertChecked_eq h, ← hc.fits_iff]
  by_cases hfits : c.fits n = true
  · rw [if_pos hfits]
    exact iff_of_true ⟨_, rfl⟩ hfits
  · rw [if_neg hfits]
    exact iff_of_false nofun hfits

/-- The result of a checked conversion is that of the integer that it starts from. -/
theorem eq_convertNumber (h : sourceInteger c source v = .ok n)
    (hr : convertChecked c source v = .ok r) : r = convertNumber c none (.ofInt n) := by
  rw [convertChecked_eq h] at hr
  split at hr
  · exact (Except.ok.inj hr).symm
  · cases hr

/-- What a checked conversion that reads the sign gives for an integer and a target of a width, with
a sign or without. -/
structure LosslessOn (c : Conversion) (v : Value) (n : Int) (w : Nat) (unsigned : Bool) : Prop where
  /-- There is a result exactly if the integer is in the range of the target. -/
  isOk_iff : (∃ r, convertChecked c false v = .ok r) ↔ ∃ z : BitVec w, reading unsigned z = n
  /-- The result is that of the conversion that is not checked, and the bits of the target read
  back as the integer. -/
  eq_convert {r : Value} (h : convertChecked c false v = .ok r) :
    convert c v = .ok r ∧ ∃ m, r.Reads m ∧ reading unsigned (BitVec.ofInt w m) = n
  /-- Otherwise the error names the conversion. -/
  overflow (h : ¬∃ z : BitVec w, reading unsigned z = n) :
    convertChecked c false v = .error (.overflow c.name)

/-- **A checked conversion that reads the sign is lossless or fails.** -/
theorem losslessOn (hc : c.IsInteger w unsigned) (hv : v.Reads n) :
    LosslessOn c v n w unsigned := by
  have hsource := sourceInteger_signed c hv
  have hisOk := exists_convertChecked_iff hc hsource
  constructor
  case isOk_iff => exact hisOk
  case eq_convert =>
    intro r hr
    obtain ⟨z, hz⟩ := hisOk.1 ⟨r, hr⟩
    obtain rfl := eq_convertNumber hsource hr
    obtain ⟨m, hm, hmn⟩ := exists_reads_convertNumber hc none n
    refine ⟨convert_eq c hv, m, hm, ?_⟩
    rw [hmn, ← hz, ofInt_reading]
  case overflow =>
    intro h
    rw [convertChecked_eq hsource, if_neg (mt (hc.fits_iff n).1 h)]

/-- A result of the unsigned target of 32 bits is kept with the sign of its highest bit, and reads
back as it was. -/
theorem losslessOn_highBit :
    (∃ r, convertChecked .u4 false (.int64 4294967295) = .ok r ∧
      convert .u4 (.int64 4294967295) = .ok r ∧
      ∃ m, r.Reads m ∧ reading true (BitVec.ofInt 32 m) = 4294967295) ∧
    convertChecked .u4 false (.int64 4294967296) = .error (.overflow "conv.u4") ∧
    convertChecked .u4 false (.int8 (-1)) = .error (.overflow "conv.u4") := by
  have hin := losslessOn .u4 (.int64 4294967295)
  have hout := losslessOn .u4 (.int64 4294967296)
  have hnegative := losslessOn .u4 (.int8 (-1))
  obtain ⟨r, hr⟩ := hin.isOk_iff.2 ⟨-1, by decide⟩
  refine ⟨⟨r, hr, hin.eq_convert hr⟩, hout.overflow ?_, hnegative.overflow ?_⟩
  · rw [← inWidth_iff (by decide), inWidth_unsigned_iff]
    decide
  · rw [← inWidth_iff (by decide), inWidth_unsigned_iff]
    decide

/-! ## Sources without a sign -/

/-- A value of at least 32 bits is kept as the word of its target. -/
theorem isWord_convertNumber (hc : c.IsInteger w unsigned) (hw : 32 ≤ w) (float : Option Float)
    (n : Int) : (convertNumber c float (.ofInt n)).IsWord w (BitVec.ofInt w n) := by
  have hkeep : ∀ m, (c.keep m).IsWord w (BitVec.ofInt w m) := by
    intro m
    cases hc with
    | i1 | i2 | u1 | u2 => exact absurd hw (by decide)
    | i4 | u4 => exact .int32 _
    | i8 | i | u8 | u => exact .int64 _
  have hword := hkeep (reading (unsigned && decide (w < 32)) (BitVec.ofInt w n))
  rw [ofInt_reading] at hword
  rw [convertNumber_eq hc]
  exact hword

/-- What the conversions to an unsigned target of a width give for a word. The checked one does not
read the sign. -/
structure UnsignedConversionOn (c : Conversion) (v : Value) (x : BitVec s) (w : Nat) : Prop where
  /-- The checked conversion has a result exactly if the pattern of the word is in the range. -/
  isOk_iff : (∃ r, convertChecked c true v = .ok r) ↔ x.toNat < 2 ^ w
  /-- The unchecked conversion has the same result exactly if the target is not the wider one or the
  sign is not negative. -/
  agree_iff {r : Value} (h : convertChecked c true v = .ok r) :
    convert c v = .ok r ↔ w ≤ s ∨ 0 ≤ x.toInt
  /-- In a wider target the checked conversion puts zeros in front and the unchecked one repeats the
  sign. -/
  widen (h : s < w) : GivesWord (convertChecked c true v) (x.setWidth w) ∧
    GivesWord (convert c v) (x.signExtend w)

/-- **Checked and unchecked conversions to unsigned targets** agree where they both have a result,
except that a wider target gets zeros from the one and the sign from the other. -/
theorem unsignedConversionOn (hc : c.IsInteger w true) (hv : v.IsWord s x) :
    UnsignedConversionOn c v x w := by
  have hsource := sourceInteger_unsigned c hv
  have hisOk : (∃ r, convertChecked c true v = .ok r) ↔ x.toNat < 2 ^ w := by
    rw [exists_convertChecked_iff hc hsource, ← inWidth_iff hc.pos, inWidth_unsigned_iff,
      and_iff_right (Int.natCast_nonneg _), Int.ofNat_lt]
  constructor
  case isOk_iff => exact hisOk
  case agree_iff =>
    intro r hr
    rw [eq_convertNumber hsource hr, convert_eq c hv.reads, Except.ok.injEq, convertNumber_inj hc,
      ofInt_toNat_eq_setWidth, ← setWidth_eq_signExtend_iff]
    exact eq_comm
  case widen =>
    intro hlt
    have hw : 32 ≤ w := by
      cases hv <;> exact Nat.le_of_lt (Nat.lt_of_le_of_lt (by decide) hlt)
    obtain ⟨r, hr⟩ := hisOk.2 (Nat.lt_trans x.isLt (Nat.pow_lt_pow_right (by decide) hlt))
    refine ⟨⟨r, hr, ?_⟩, ⟨_, convert_eq c hv.reads, isWord_convertNumber hc hw none x.toInt⟩⟩
    rw [eq_convertNumber hsource hr, ← ofInt_toNat_eq_setWidth]
    exact isWord_convertNumber hc hw none x.toNat

/-- Minus one in 32 bits, converted to the unsigned integers of 64 bits: the checked conversion
gives the largest integer of 32 bits, and the unchecked one the largest of 64. -/
theorem unsignedConversionOn_minusOne :
    convertChecked .u8 true (.int32 (-1)) = .ok (.int64 4294967295) ∧
      convert .u8 (.int32 (-1)) ≠ .ok (.int64 4294967295) ∧
      GivesWord (convert .u8 (.int32 (-1))) (BitVec.allOnes 64) := by
  have hon := unsignedConversionOn .u8 (.int32 (-1))
  have hchecked : convertChecked .u8 true (.int32 (-1)) = .ok (.int64 4294967295) := by
    decide +kernel
  refine ⟨hchecked, ?_, (hon.widen (by decide)).2⟩
  intro h
  exact absurd ((hon.agree_iff hchecked).1 h) (by decide)

end Hotswap
