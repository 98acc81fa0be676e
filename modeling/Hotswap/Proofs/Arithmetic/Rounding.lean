import Mathlib

/-!
# How far rounding goes up

The product of two floating-point numbers is rounded, and so is an integer that becomes one.
Rounding goes up by at most half a unit of the last place (`roundWithAccuracy_le`), which is at most
one part in `2 ^ 53`. So a product is finite if the exact product is less than the number halfway
between the largest floating-point number and the next power of two (`isInf_mul`).

All of this is about numbers with a full significand of 53 bits; products of powers of ten and
integers are such numbers.
-/

namespace Hotswap.Binary64

open Float.Model (Format UnpackedFloat totalExponent)
open Float.Model.UnpackedFloat

/-- The number with a significand and an exponent. -/
def scaled (m : Nat) (e : Int) : Rat := m * 2 ^ e

/-- A significand of exactly 53 bits. -/
structure IsFull (m : Nat) : Prop where
  /-- The highest bit is set. -/
  le : 2 ^ 52 ≤ m
  /-- There are no more bits. -/
  lt : m < 2 ^ 53

/-- The highest bit of a full significand is its 53rd. -/
theorem IsFull.log2 {m : Nat} (h : IsFull m) : m.log2 = 52 := by
  have hpos : m ≠ 0 := by
    have hle := h.le
    omega
  exact (Nat.log2_eq_iff hpos).2 ⟨h.le, h.lt⟩

/-- A full significand is not zero. -/
theorem IsFull.pos {m : Nat} (h : IsFull m) : 0 < m := Nat.lt_of_lt_of_le (by decide) h.le

/-! ## Shifted significands -/

/-- A significand without bits behind it. -/
def exactly (m : Nat) : ExtendedMantissa := ⟨m, false, false⟩

/-- Shifting divides by a power of two. -/
theorem mantissa_shift (m n : Nat) : (exactly m >>> n).mantissa = m / 2 ^ n := by
  induction n with
  | zero =>
    show m = _
    rw [Nat.pow_zero, Nat.div_one]
  | succ n ih =>
    show (exactly m >>> n).mantissa / 2 = _
    rw [ih, Nat.div_div_eq_div_mul, Nat.pow_succ]

/-- The first bit that is shifted out is set only if at least a half is lost. -/
theorem half_le_of_roundBit {m n : Nat} (h : (exactly m >>> n).roundBit = true) :
    (2 * (m / 2 ^ n) + 1) * 2 ^ n ≤ 2 * m := by
  cases n with
  | zero => cases h
  | succ n =>
    change ((exactly m >>> n).mantissa % 2 != 0) = true at h
    rw [mantissa_shift, bne_iff_ne] at h
    have hodd : 2 * (m / 2 ^ (n + 1)) + 1 = m / 2 ^ n := by
      rw [Nat.pow_succ, ← Nat.div_div_eq_div_mul]
      omega
    have hle : m / 2 ^ n * 2 ^ n ≤ m := Nat.div_mul_le_self m (2 ^ n)
    rw [hodd, Nat.pow_succ, ← Nat.mul_assoc]
    omega

/-- A rounded significand is the one below or the one above. -/
theorem roundedMantissa_cases (em : ExtendedMantissa) :
    em.roundedMantissa = em.mantissa ∨
      em.roundedMantissa = em.mantissa + 1 ∧ em.roundBit = true := by
  obtain ⟨m, roundBit, stickyBit⟩ := em
  cases roundBit <;> cases stickyBit
  · exact .inl rfl
  · exact .inl rfl
  · have hodd : m + m % 2 = m ∨ m + m % 2 = m + 1 := by omega
    exact hodd.imp id fun hup => ⟨hup, rfl⟩
  · exact .inr ⟨rfl, rfl⟩

/-- So rounding a shifted significand goes up by at most half of the last bit that is left. -/
theorem roundedMantissa_shift_le (m n : Nat) :
    2 * ((exactly m >>> n).roundedMantissa * 2 ^ n) ≤ 2 * m + 2 ^ n := by
  have hpos : 0 < 2 ^ n := Nat.two_pow_pos n
  have hle : m / 2 ^ n * 2 ^ n ≤ m := Nat.div_mul_le_self m (2 ^ n)
  rcases roundedMantissa_cases (exactly m >>> n) with hdown | ⟨hup, hbit⟩
  · rw [hdown, mantissa_shift]
    omega
  · have hhalf := half_le_of_roundBit hbit
    rw [hup, mantissa_shift]
    rw [Nat.add_mul, Nat.one_mul] at hhalf ⊢
    rw [Nat.mul_assoc] at hhalf
    omega

/-! ## Rounding -/

/-- A number is brought to its unit by one shift. -/
theorem shiftToTargetExponent_exact (m : Nat) (e : Int) (n : Nat)
    (hn : (Format.binary64.targetExponent (totalExponent m e) - e).toNat = n) :
    shiftToTargetExponent Format.binary64 m e .exact = (exactly m >>> n, e + n) := by
  subst hn
  rfl

/-- The unit leaves 53 bits, unless that would be below the smallest unit. -/
theorem targetExponent_eq (m : Nat) (e : Int) :
    Format.binary64.targetExponent (totalExponent m e) = max (m.log2 + e - 52) (-1074) := by
  show max ((m.log2 : Int) + 1 + e - 53) (-1074) = _
  congr 1
  omega

/-- A significand of 53 bits stays as it is, and one that rounding has filled up to `2 ^ 53` is
halved. -/
theorem shiftToTargetExponent_rounded {r : Nat} {e : Int} (hle : 2 ^ 52 ≤ r) (hlt : r ≤ 2 ^ 53)
    (he : -1074 ≤ e) :
    ∃ m' e', (shiftToTargetExponent Format.binary64 r e .exact).1.mantissa = m' ∧
      (shiftToTargetExponent Format.binary64 r e .exact).2 = e' ∧ IsFull m' ∧ e ≤ e' ∧
      scaled m' e' = scaled r e := by
  by_cases hfull : r < 2 ^ 53
  · have hlog : r.log2 = 52 := IsFull.log2 ⟨hle, hfull⟩
    have hshift : (Format.binary64.targetExponent (totalExponent r e) - e).toNat = 0 := by
      rw [targetExponent_eq, hlog]
      omega
    rw [shiftToTargetExponent_exact r e 0 hshift]
    refine ⟨r, e, rfl, ?_, ⟨hle, hfull⟩, Int.le_refl e, rfl⟩
    show e + ((0 : Nat) : Int) = e
    omega
  · have hr : r = 2 ^ 53 := by omega
    subst hr
    have hlog : (2 ^ 53 : Nat).log2 = 53 := Nat.log2_two_pow
    have hshift : (Format.binary64.targetExponent (totalExponent (2 ^ 53) e) - e).toNat = 1 := by
      rw [targetExponent_eq, hlog]
      omega
    rw [shiftToTargetExponent_exact _ e 1 hshift]
    refine ⟨2 ^ 52, e + 1, rfl, rfl, ⟨Nat.le_refl _, by decide⟩, by omega, ?_⟩
    unfold scaled
    rw [zpow_add₀ (by norm_num)]
    push_cast
    ring

/-- Shifting a number to 53 bits and rounding leaves 53 bits, or fills them up to `2 ^ 53`. -/
theorem roundedMantissa_shift_bounds {m n : Nat} (h : m.log2 = 52 + n) :
    2 ^ 52 ≤ (exactly m >>> n).roundedMantissa ∧ (exactly m >>> n).roundedMantissa ≤ 2 ^ 53 := by
  have hm : m ≠ 0 := by
    rintro rfl
    simp at h
    omega
  have hlow : 2 ^ 52 * 2 ^ n ≤ m := by
    rw [← Nat.pow_add, ← h]
    exact Nat.log2_self_le hm
  have hhigh : m < 2 ^ 53 * 2 ^ n := by
    rw [← Nat.pow_add, show 53 + n = m.log2 + 1 by omega]
    exact Nat.lt_log2_self
  have hfloor : 2 ^ 52 ≤ m / 2 ^ n := (Nat.le_div_iff_mul_le (Nat.two_pow_pos n)).2 hlow
  have hceil : m / 2 ^ n < 2 ^ 53 := (Nat.div_lt_iff_lt_mul (Nat.two_pow_pos n)).2 hhigh
  have hcases := roundedMantissa_cases (exactly m >>> n)
  rw [mantissa_shift] at hcases
  omega

/-- **Rounding goes up by at most half a unit.** The unit of a number whose first bit stands for
`2 ^ (u + 52)` is `2 ^ u`. -/
theorem roundWithAccuracy_le {m : Nat} {e : Int} (s : Sign) (hm : 52 ≤ m.log2)
    (he : -1074 ≤ m.log2 + e - 52) :
    ∃ m' e' hpos, roundWithAccuracy Format.binary64 s m e .exact = .finite s m' e' hpos ∧
      IsFull m' ∧ m.log2 + e - 52 ≤ e' ∧
      scaled m' e' ≤ scaled m e + 2 ^ (m.log2 + e - 52) / 2 := by
  obtain ⟨n, hn⟩ : ∃ n, m.log2 = 52 + n := ⟨m.log2 - 52, by omega⟩
  have hunit : (m.log2 : Int) + e - 52 = e + n := by omega
  have hshift : (Format.binary64.targetExponent (totalExponent m e) - e).toNat = n := by
    rw [targetExponent_eq]
    omega
  obtain ⟨hlow, hhigh⟩ := roundedMantissa_shift_bounds hn
  obtain ⟨m', e', hm', he', hfull, hle, hvalue⟩ :=
    shiftToTargetExponent_rounded hlow hhigh (e := e + n) (by omega)
  have hround : scaled (exactly m >>> n).roundedMantissa (e + n) ≤
      scaled m e + 2 ^ (e + n) / 2 := by
    have hnat := roundedMantissa_shift_le m n
    have hrat : 2 * (((exactly m >>> n).roundedMantissa : Rat) * 2 ^ n) ≤ 2 * m + 2 ^ n := by
      exact_mod_cast hnat
    have hpos : (0 : Rat) < 2 ^ e := zpow_pos (by norm_num) e
    unfold scaled
    rw [zpow_add₀ (by norm_num), zpow_natCast]
    nlinarith
  refine ⟨m', e', hfull.pos, ?_, hfull, by omega, ?_⟩
  · unfold roundWithAccuracy
    rw [shiftToTargetExponent_exact m e n hshift]
    dsimp only
    simp only [hm', he', dif_neg (Nat.ne_of_gt hfull.pos)]
  · rw [hvalue, hunit]
    exact hround

/-- Rounding goes up by at most one part in `2 ^ 53`. -/
theorem half_unit_le {m : Nat} (e : Int) (hm : m ≠ 0) :
    (2 : Rat) ^ (m.log2 + e - 52) / 2 ≤ scaled m e / 2 ^ 53 := by
  have hlow : ((2 ^ m.log2 : Nat) : Rat) ≤ m := by
    exact_mod_cast Nat.log2_self_le hm
  have hpos : (0 : Rat) < 2 ^ e := zpow_pos (by norm_num) e
  have hunit : (2 : Rat) ^ ((m.log2 : Int) + e - 52) = 2 ^ m.log2 * 2 ^ e / 2 ^ 52 := by
    rw [zpow_sub₀ (by norm_num), zpow_add₀ (by norm_num), zpow_natCast]
    norm_num
  push_cast at hlow
  rw [hunit, scaled]
  have hmul : (2 : Rat) ^ m.log2 * 2 ^ e ≤ m * 2 ^ e := by
    exact mul_le_mul_of_nonneg_right hlow hpos.le
  linarith

/-! ## Packed numbers -/

/-- The sign is packed in the highest bit. -/
theorem unpackSign_packComponents {spec : Format} (s : Sign) (e : BitVec spec.exponentBits)
    (m : BitVec spec.mantissaBitsWithoutImplicit) :
    unpackSign (packComponents spec s e m) = s.toBitVec := by
  have hsign : (s.toBitVec ++ e)[spec.exponentBits] = s.toBitVec[0] := by
    rw [BitVec.getElem_append, dif_neg (Nat.lt_irrefl _)]
    simp only [Nat.sub_self]
  ext i hi
  obtain rfl : i = 0 := Nat.lt_one_iff.1 hi
  simpa [unpackSign, packComponents, BitVec.getLsbD_append] using hsign

/-- The stored bits of a full significand with the hidden bit in front are the significand. -/
theorem toNat_hidden_append {m : Nat} (h : IsFull m) : (1#1 ++ BitVec.ofNat 52 m).toNat = m := by
  have hle := h.le
  have hlt := h.lt
  rw [BitVec.toNat_append, ← Nat.shiftLeft_add_eq_or_of_lt (BitVec.isLt _), BitVec.toNat_ofNat,
    Nat.shiftLeft_eq]
  show 1 * 2 ^ 52 + m % 2 ^ 52 = m
  omega

/-- A number that fits is packed without loss. -/
theorem unpack_pack {s : Sign} {m : Nat} {e : Int} (hpos : 0 < m) (hm : IsFull m)
    (hlow : -1074 ≤ e) (hhigh : e ≤ 971) :
    (Float.Model.pack (.finite s m e hpos)).unpack = .finite s m e hpos := by
  obtain ⟨b, hb⟩ : ∃ b : Nat, e + 1075 = b := ⟨(e + 1075).toNat, by omega⟩
  have hfield : (BitVec.ofNat 11 b).toNat = b := by
    rw [BitVec.toNat_ofNat, Nat.mod_eq_of_lt (by omega)]
  have hinfinite : BitVec.ofNat 11 b ≠ -1#11 := by
    intro heq
    have hval := congrArg BitVec.toNat heq
    rw [hfield] at hval
    have hones : (-1#11).toNat = 2047 := by decide
    omega
  have hzero : BitVec.ofNat 11 b ≠ 0#11 := by
    intro heq
    have hval := congrArg BitVec.toNat heq
    rw [hfield, BitVec.toNat_zero] at hval
    omega
  have hpack : pack Format.binary64 (.finite s m e hpos) =
      packComponents Format.binary64 s (BitVec.ofNat 11 b) (BitVec.ofNat 52 m) := by
    have hbiased : (e + Format.binary64.exponentBias +
        Format.binary64.mantissaBitsWithoutImplicit).toNat = b := by
      show (e + 1023 + 52).toNat = b
      omega
    simp only [pack, hbiased, hm.log2]
    rw [if_neg (by omega)]
    rfl
  show unpack Format.binary64 (pack Format.binary64 (.finite s m e hpos)) = _
  rw [hpack, unpack]
  simp only [unpackExponent_packComponents, unpackMantissa_packComponents,
    unpackSign_packComponents, if_neg hinfinite, if_neg hzero, hfield, toNat_hidden_append hm]
  congr 1
  · cases s <;> rfl
  · show (b : Int) - (1023 + 52) = e
    omega

/-! ## Integers and products -/

/-- A floating-point number that is positive, has a full significand and is at most `bound`. -/
structure IsUpTo (bound : Rat) (x : Float) (m : Nat) (e : Int) : Prop where
  /-- The parts of the number. -/
  parts : ∃ hpos, x.toModel.unpack = .finite .positive m e hpos
  /-- The significand has all its bits. -/
  full : IsFull m
  /-- The unit is not less than that of one. -/
  low : -52 ≤ e
  /-- The bound. -/
  le : scaled m e ≤ bound

/-- The unit of the largest numbers. -/
def topUnit : Rat := 2 ^ (971 : Int)

/-- The unit of the largest numbers is itself more than a few thousands. -/
theorem two_pow_le_topUnit : 2 ^ 12 ≤ topUnit := by
  rw [topUnit, ← zpow_natCast]
  exact zpow_le_zpow_right₀ (by norm_num) (by norm_num)

/-- The next power is twice the unit of the largest numbers. -/
theorem two_zpow_972 : (2 : Rat) ^ (972 : Int) = 2 * topUnit := by
  rw [topUnit, show (972 : Int) = 1 + 971 from rfl, zpow_add₀ (by norm_num), zpow_one]

/-- A number below `2 ^ 1024` with a full significand has an exponent in range. -/
theorem exponent_le_of_scaled_lt {m : Nat} {e : Int} (hm : IsFull m)
    (h : scaled m e < 2 ^ 53 * topUnit) : e ≤ 971 := by
  have hlow : ((2 ^ 52 : Nat) : Rat) ≤ m := by exact_mod_cast hm.le
  have hpos : (0 : Rat) < 2 ^ e := zpow_pos (by norm_num) e
  have hpow : (2 : Rat) ^ e < 2 ^ (972 : Int) := by
    have hmul : ((2 ^ 52 : Nat) : Rat) * 2 ^ e ≤ m * 2 ^ e :=
      mul_le_mul_of_nonneg_right hlow hpos.le
    unfold scaled at h
    push_cast at hmul
    rw [two_zpow_972]
    linarith
  have hlt := (zpow_lt_zpow_iff_right₀ (by norm_num : (1 : Rat) < 2)).1 hpow
  omega

/-- Zeros behind a number move its highest bit. -/
theorem log2_mul_two_pow {n : Nat} (j : Nat) (h : n ≠ 0) : (n * 2 ^ j).log2 = n.log2 + j := by
  have hne : n * 2 ^ j ≠ 0 := Nat.mul_ne_zero h (Nat.two_pow_pos j).ne'
  refine (Nat.log2_eq_iff hne).2 ⟨?_, ?_⟩
  · rw [Nat.pow_add]
    exact Nat.mul_le_mul_right _ (Nat.log2_self_le h)
  · rw [show n.log2 + j + 1 = n.log2 + 1 + j by omega, Nat.pow_add]
    exact Nat.mul_lt_mul_of_pos_right Nat.lt_log2_self (Nat.two_pow_pos j)

/-- An integer is shifted to the left until it has 53 bits, and then it is rounded. -/
theorem ofUInt64_eq {n : UInt64} (h : 0 < n.toNat) :
    UnpackedFloat.ofUInt64 Format.binary64 n =
      roundWithAccuracy Format.binary64 .positive (n.toNat * 2 ^ (52 - n.toNat.log2))
        (-(52 - n.toNat.log2 : Nat)) .exact := by
  have hcompare : compare (n.toNat : Int) 0 = .gt := Int.compare_eq_gt.2 (by omega)
  have htarget := targetExponent_eq n.toNat 0
  have hshift : (0 - Format.binary64.targetExponent (totalExponent n.toNat 0)).toNat =
      52 - n.toNat.log2 := by
    rw [htarget]
    omega
  show UnpackedFloat.normalize Format.binary64 (n.toNat : Int) 0 .positive = _
  unfold UnpackedFloat.normalize
  rw [hcompare]
  show UnpackedFloat.round Format.binary64 .positive n.toNat 0 = _
  unfold UnpackedFloat.round decreaseExponent
  dsimp only
  rw [hshift, Nat.shiftLeft_eq]
  congr 1
  omega

/-- An integer becomes a floating-point number that is larger by at most one part in `2 ^ 53`. -/
theorem isUpTo_toFloat {n : UInt64} (h : 0 < n.toNat) :
    ∃ m e, IsUpTo (n.toNat * (1 + 1 / 2 ^ 53)) n.toFloat m e := by
  obtain ⟨j, hj⟩ : ∃ j, 52 - n.toNat.log2 = j := ⟨_, rfl⟩
  have hlog := log2_mul_two_pow j h.ne'
  have hne : n.toNat * 2 ^ j ≠ 0 := Nat.mul_ne_zero h.ne' (Nat.two_pow_pos j).ne'
  have hself : scaled (n.toNat * 2 ^ j) (-j) = n.toNat := by
    unfold scaled
    rw [zpow_neg, zpow_natCast]
    push_cast
    field_simp
  obtain ⟨m, e, hpos, hround, hfull, hlow, hvalue⟩ :=
    roundWithAccuracy_le (m := n.toNat * 2 ^ j) (e := -j) .positive (by omega) (by omega)
  have hle : scaled m e ≤ n.toNat * (1 + 1 / 2 ^ 53) := by
    have hunit := half_unit_le (-j) hne
    rw [hself] at hvalue hunit
    linarith
  have hhigh : e ≤ 971 := by
    have hsize : (n.toNat : Rat) < (2 ^ 64 : Nat) := by exact_mod_cast n.toNat_lt
    have hunit := two_pow_le_topUnit
    refine exponent_le_of_scaled_lt hfull ?_
    push_cast at hsize
    linarith
  refine ⟨m, e, ⟨hpos, ?_⟩, hfull, by omega, hle⟩
  show (Float.Model.pack (UnpackedFloat.ofUInt64 Format.binary64 n)).unpack = _
  rw [ofUInt64_eq h, hj, hround, unpack_pack hpos hfull (by omega) hhigh]

/-- **A product is finite** if the exact product is less than the number halfway between the largest
floating-point number and the next power of two. -/
theorem isInf_mul {x y : Float} {a b : Rat} {m n : Nat} {d e : Int} (hx : IsUpTo a x m d)
    (hy : IsUpTo b y n e) (hab : a * b < (2 ^ 53 - 1 / 2) * topUnit) : (x * y).isInf = false := by
  obtain ⟨hm, hxparts⟩ := hx.parts
  obtain ⟨hn, hyparts⟩ := hy.parts
  have hdlow := hx.low
  have helow := hy.low
  have hproduct : scaled (m * n) (d + e) < (2 ^ 53 - 1 / 2) * topUnit := by
    have hsplit : scaled (m * n) (d + e) = scaled m d * scaled n e := by
      unfold scaled
      rw [zpow_add₀ (by norm_num)]
      push_cast
      ring
    have hnonneg : ∀ (k : Nat) (i : Int), 0 ≤ scaled k i := fun k i =>
      mul_nonneg (Nat.cast_nonneg k) (zpow_pos (by norm_num) i).le
    rw [hsplit]
    exact lt_of_le_of_lt (mul_le_mul hx.le hy.le (hnonneg n e) ((hnonneg m d).trans hx.le)) hab
  have hlog : 104 ≤ (m * n).log2 := by
    refine (Nat.le_log2 (Nat.mul_pos hm hn).ne').2 ?_
    calc 2 ^ 104 = 2 ^ 52 * 2 ^ 52 := by norm_num
      _ ≤ m * n := Nat.mul_le_mul hx.full.le hy.full.le
  obtain ⟨p, k, hpos, hround, hfull, hlow, hvalue⟩ :=
    roundWithAccuracy_le (m := m * n) (e := d + e) (.positive * .positive) (by omega) (by omega)
  -- The unit of the product is at most `2 ^ 971`.
  have hunit : (2 : Rat) ^ (((m * n).log2 : Int) + (d + e) - 52) ≤ topUnit := by
    have htop := two_pow_le_topUnit
    have hhalf := half_unit_le (d + e) (Nat.mul_pos hm hn).ne'
    have hlt : (2 : Rat) ^ (((m * n).log2 : Int) + (d + e) - 52) < 2 ^ (972 : Int) := by
      rw [two_zpow_972]
      linarith
    have hlt := (zpow_lt_zpow_iff_right₀ (by norm_num : (1 : Rat) < 2)).1 hlt
    exact zpow_le_zpow_right₀ (by norm_num) (by omega)
  have hhigh : k ≤ 971 := by
    refine exponent_le_of_scaled_lt hfull ?_
    linarith
  show (Float.Model.pack (UnpackedFloat.mul Format.binary64 x.toModel.unpack
    y.toModel.unpack)).unpack.isInf = false
  rw [hxparts, hyparts]
  show (Float.Model.pack (roundWithAccuracy Format.binary64 (.positive * .positive) (m * n) (d + e)
    .exact)).unpack.isInf = false
  rw [hround, unpack_pack hpos hfull (by omega) hhigh]
  rfl

end Hotswap.Binary64
