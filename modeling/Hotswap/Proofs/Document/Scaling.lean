import Hotswap.Document.Number
import Hotswap.Proofs.Arithmetic.Rounding
import Hotswap.Proofs.Decimal.Digits

/-!
# Numerals that are not refused

The reader of numerals collects digits, rounds them to a floating-point number and scales that by a
power of ten. A numeral is refused only if the product is beyond the largest number. The digits, the
power and the product are rounded, so the reader may refuse a numeral that is a little below the
largest number; it accepts every numeral up to `decimalLimit`, which leaves room for the three
roundings (`isInf_toFloat_mul_powerOfTen`).
-/

namespace Hotswap.Document

open Binary64

/-- The numerals up to this number are not refused. -/
def decimalLimit : Rat := (2 ^ 53 - 5 / 2) * topUnit

/-- This number has no more than 309 digits before the point. -/
theorem decimalLimit_lt : decimalLimit < 10 ^ (309 : Int) := by
  have htop : topUnit ≤ 10 ^ (293 : Int) := by
    have hnat : 2 ^ 971 ≤ 10 ^ 293 := by decide +kernel
    have hcast : ((2 ^ 971 : Nat) : Rat) ≤ ((10 ^ 293 : Nat) : Rat) := Nat.cast_le.2 hnat
    rw [Nat.cast_pow, Nat.cast_pow, ← zpow_natCast, ← zpow_natCast] at hcast
    exact hcast
  have hpos : (0 : Rat) < 10 ^ (293 : Int) := zpow_pos (by norm_num) _
  have hsplit : (10 : Rat) ^ (309 : Int) = 10 ^ 16 * 10 ^ (293 : Int) := by
    rw [← zpow_natCast, ← zpow_add₀ (by norm_num)]
    rfl
  unfold decimalLimit
  rw [hsplit]
  generalize (10 : Rat) ^ (293 : Int) = t at htop hpos
  linarith

/-- A factor of 55 bits is far from the limit with 290 zeros. -/
theorem two_pow_mul_ten_pow_le_decimalLimit : 2 ^ 55 * 10 ^ 290 ≤ decimalLimit := by
  have hten : (10 : Rat) ^ 290 * 2 ^ 7 ≤ topUnit := by
    have hnat : 10 ^ 290 * 2 ^ 7 ≤ 2 ^ 971 := by decide +kernel
    have hcast : ((10 ^ 290 * 2 ^ 7 : Nat) : Rat) ≤ ((2 ^ 971 : Nat) : Rat) := Nat.cast_le.2 hnat
    simp only [Nat.cast_mul, Nat.cast_pow, Nat.cast_ofNat] at hcast
    rwa [topUnit, show (971 : Int) = ((971 : Nat) : Int) from rfl, zpow_natCast]
  have htop := two_pow_le_topUnit
  unfold decimalLimit
  generalize (10 : Rat) ^ 290 = t at hten
  linarith

/-! ## Powers of ten -/

/-- Whether a power of ten is rounded to a number with a full significand, and up by at most one
part in `2 ^ 53`. -/
def isPowerClose (e : Nat) : Bool :=
  match (powerOfTen e).toModel.unpack with
  | .finite .positive m d _ =>
    decide (2 ^ 52 ≤ m ∧ m < 2 ^ 53 ∧ -52 ≤ d) &&
      decide (m * 2 ^ (d + 52).toNat * 2 ^ 53 ≤ 10 ^ e * (2 ^ 53 + 1) * 2 ^ 52)
  | _ => false

/-- Every power of ten of the table is close to what it should be. -/
theorem isPowerClose_of_le {e : Nat} (h : e ≤ 308) : isPowerClose e = true := by
  have hall : ∀ e ∈ List.range 309, isPowerClose e = true := by decide +kernel
  exact hall e (List.mem_range.2 (by omega))

/-- So each of them is the power up to a rounding. -/
theorem isUpTo_powerOfTen {e : Nat} (h : e ≤ 308) :
    ∃ m d, IsUpTo (10 ^ e * (1 + 1 / 2 ^ 53)) (powerOfTen e) m d := by
  have hclose := isPowerClose_of_le h
  unfold isPowerClose at hclose
  split at hclose
  · rename_i m d hpos hparts
    simp only [Bool.and_eq_true, decide_eq_true_eq] at hclose
    obtain ⟨⟨hle, hlt, hlow⟩, hbound⟩ := hclose
    refine ⟨m, d, ⟨hpos, hparts⟩, ⟨hle, hlt⟩, hlow, ?_⟩
    have hshift : (2 : Rat) ^ d * 2 ^ 52 = 2 ^ (d + 52).toNat := by
      rw [← zpow_natCast, ← zpow_natCast, ← zpow_add₀ (by norm_num)]
      congr 1
      push_cast
      omega
    have hrat : (m : Rat) * 2 ^ (d + 52).toNat * 2 ^ 53 ≤ 10 ^ e * (2 ^ 53 + 1) * 2 ^ 52 := by
      exact_mod_cast hbound
    rw [← hshift] at hrat
    unfold scaled
    linarith
  · cases hclose

/-- **Digits that are scaled to at most `decimalLimit` make a finite number.** -/
theorem isInf_toFloat_mul_powerOfTen {n : UInt64} {e : Nat} (he : e ≤ 308)
    (h : n.toNat * 10 ^ e ≤ decimalLimit) : (n.toFloat * powerOfTen e).isInf = false := by
  obtain ⟨m, d, hpower⟩ := isUpTo_powerOfTen he
  by_cases hn : n.toNat = 0
  · obtain ⟨hpos, hparts⟩ := hpower.parts
    obtain rfl : n = 0 := UInt64.toNat.inj hn
    have hzero : (UInt64.toFloat 0).toModel.unpack = .zero .positive := rfl
    show (Float.Model.pack (Float.Model.UnpackedFloat.mul .binary64
      (UInt64.toFloat 0).toModel.unpack (powerOfTen e).toModel.unpack)).unpack.isInf = false
    rw [hzero, hparts]
    show (Float.Model.pack (.zero (.positive * .positive))).unpack.isInf = false
    decide +kernel
  · obtain ⟨k, i, hdigits⟩ := isUpTo_toFloat (Nat.pos_of_ne_zero hn)
    refine isInf_mul hdigits hpower ?_
    have htop := two_pow_le_topUnit
    have hsquare :
        (1 + 1 / 2 ^ 53 : Rat) * (1 + 1 / 2 ^ 53) * (2 ^ 53 - 5 / 2) < 2 ^ 53 - 1 / 2 := by
      norm_num
    unfold decimalLimit at h
    calc (n.toNat : Rat) * (1 + 1 / 2 ^ 53) * (10 ^ e * (1 + 1 / 2 ^ 53))
        = (1 + 1 / 2 ^ 53) * (1 + 1 / 2 ^ 53) * (n.toNat * 10 ^ e) := by ring
      _ ≤ (1 + 1 / 2 ^ 53) * (1 + 1 / 2 ^ 53) * ((2 ^ 53 - 5 / 2) * topUnit) :=
        mul_le_mul_of_nonneg_left h (by norm_num)
      _ < (2 ^ 53 - 1 / 2) * topUnit := by
        rw [← mul_assoc]
        exact mul_lt_mul_of_pos_right hsquare (by linarith)

/-! ## Scaled digits -/

/-- Scaling down never overflows. -/
theorem scaleByTen_isSome_of_neg (fuel : Nat) (x : Float) {e : Int} (h : e < 0) :
    (scaleByTen fuel x e).isSome = true := by
  induction fuel generalizing x e with
  | zero => rfl
  | succ fuel ih =>
    have hneg : ¬0 ≤ e := by omega
    rw [scaleByTen]
    simp only [if_neg hneg]
    split
    · rfl
    · split
      · rfl
      · exact ih _ (by omega)

/-- Digits that are scaled down, or up to at most `decimalLimit`, are not refused. -/
theorem scaleByTen_isSome {n : UInt64} {e : Int}
    (h : 0 ≤ e → e ≤ 308 ∧ n.toNat * 10 ^ e ≤ decimalLimit) :
    (scaleByTen 4 n.toFloat e).isSome = true := by
  by_cases he : 0 ≤ e
  · obtain ⟨hhigh, hlimit⟩ := h he
    obtain ⟨k, rfl⟩ := Int.eq_ofNat_of_zero_le he
    have hfinite : (n.toFloat * powerOfTen k).isInf = false := by
      refine isInf_toFloat_mul_powerOfTen (by omega) ?_
      rwa [zpow_natCast] at hlimit
    rw [scaleByTen, if_pos (by omega), if_pos he]
    show (if (n.toFloat * powerOfTen k).isInf then none else some _).isSome = true
    rw [hfinite]
    rfl
  · exact scaleByTen_isSome_of_neg 4 n.toFloat (by omega)

/-- A number of 64 bits is below the limit. -/
theorem toNat_le_decimalLimit (n : UInt64) : (n.toNat : Rat) ≤ decimalLimit := by
  have hsize : (n.toNat : Rat) < (2 ^ 64 : Nat) := by exact_mod_cast n.toNat_lt
  have htop := two_pow_le_topUnit
  push_cast at hsize
  unfold decimalLimit
  linarith

/-- Digits with a power of ten that is not positive are not refused. -/
theorem scaleByTen_isSome_of_nonpos (n : UInt64) {e : Int} (h : e ≤ 0) :
    (scaleByTen 4 n.toFloat e).isSome = true := by
  refine scaleByTen_isSome fun he => ⟨by omega, ?_⟩
  obtain rfl : e = 0 := by omega
  rw [zpow_zero, mul_one]
  exact toNat_le_decimalLimit n

/-- A numeral without a written exponent is not refused if its digits were all collected. -/
theorem finishFloat_none_isSome (negative : Bool) {c : Collected} (h : c.exponent ≤ 0) :
    (finishFloat negative c none).isSome = true := by
  unfold finishFloat
  dsimp only
  rw [Option.isSome_map]
  exact scaleByTen_isSome_of_nonpos _ h

/-- A numeral with a written exponent is not refused if the exponent is negative or the number is at
most `decimalLimit`. -/
theorem finishFloat_some_isSome (negative : Bool) {c : Collected} {down : Bool} {e : Nat}
    (hc : c.exponent ≤ 0)
    (h : down = false → e ≤ 308 ∧ c.significand * 10 ^ (c.exponent + e) ≤ decimalLimit) :
    (finishFloat negative c (some (down, e))).isSome = true := by
  have hmin : Int32.minValue.toInt = -2147483648 := rfl
  have hmax : Int32.maxValue.toInt = 2147483647 := rfl
  unfold finishFloat
  dsimp only
  cases down with
  | true =>
    have hclamp : clampExponent (c.exponent - e) ≤ 0 := by
      unfold clampExponent
      omega
    split
    · simp
    · rw [Option.isSome_map]
      exact scaleByTen_isSome_of_nonpos _ hclamp
  | false =>
    obtain ⟨he, hlimit⟩ := h rfl
    rw [if_neg (by omega), Option.isSome_map]
    refine scaleByTen_isSome fun hnonneg => ?_
    have hclamp : clampExponent (c.exponent + e) = c.exponent + e := by
      unfold clampExponent at hnonneg ⊢
      simp only [Bool.false_eq_true, if_false] at hnonneg
      omega
    simp only [Bool.false_eq_true, if_false, hclamp]
    refine ⟨by omega, le_trans ?_ hlimit⟩
    have hmod : ((UInt64.ofNat c.significand).toNat : Rat) ≤ c.significand := by
      exact_mod_cast Nat.mod_le _ _
    exact mul_le_mul_of_nonneg_right hmod (zpow_pos (by norm_num) _).le

/-! ## Collected digits -/

/-- Decimals that do not fit are dropped, which makes the number smaller. -/
theorem collectDecimals_le (c : Collected) (ds : List Char) :
    (collectDecimals c ds).exponent ≤ c.exponent ∧
      (collectDecimals c ds).significand * (10 : Rat) ^ (collectDecimals c ds).exponent ≤
        Nat.ofDigitChars 10 ds c.significand * 10 ^ (c.exponent - ds.length) := by
  induction ds generalizing c with
  | nil => simp [collectDecimals]
  | cons d ds ih =>
    have hlength : (((d :: ds).length : Nat) : Int) = ds.length + 1 := by simp
    rw [collectDecimals]
    split
    · obtain ⟨hexponent, hvalue⟩ :=
        ih ⟨c.significand * 10 + Decimal.digitValue d, c.exponent - 1⟩
      have hnext : Nat.ofDigitChars 10 (d :: ds) c.significand =
          Nat.ofDigitChars 10 ds (c.significand * 10 + Decimal.digitValue d) := by
        rw [Nat.ofDigitChars_cons, Nat.mul_comm]
        rfl
      refine ⟨hexponent.trans (by show c.exponent - 1 ≤ c.exponent; omega), ?_⟩
      rw [hnext, hlength, show c.exponent - (ds.length + 1) = c.exponent - 1 - ds.length by omega]
      exact hvalue
    · refine ⟨Int.le_refl _, ?_⟩
      -- The digits that are left only add to the number.
      have hmore : c.significand * 10 ^ (d :: ds).length ≤
          Nat.ofDigitChars 10 (d :: ds) c.significand := by
        rw [Nat.ofDigitChars_eq_ofDigitChars_zero, Nat.mul_comm]
        exact Nat.le_add_right _ _
      have hrat : (c.significand : Rat) * 10 ^ (d :: ds).length ≤
          Nat.ofDigitChars 10 (d :: ds) c.significand := by
        exact_mod_cast hmore
      have hpos : (0 : Rat) < 10 ^ (c.exponent - (d :: ds).length) := zpow_pos (by norm_num) _
      calc (c.significand : Rat) * 10 ^ c.exponent
          = c.significand * 10 ^ (d :: ds).length * 10 ^ (c.exponent - (d :: ds).length) := by
            rw [mul_assoc, ← zpow_natCast, ← zpow_add₀ (by norm_num)]
            congr 2
            omega
        _ ≤ _ := mul_le_mul_of_nonneg_right hrat hpos.le

end Hotswap.Document
