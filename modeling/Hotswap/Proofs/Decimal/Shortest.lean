import Hotswap.Decimal.Shortest
import Mathlib

/-!
# How large the shortest decimal is

The shortest decimal of a number rounds to the number, so it is at most half a unit above it. That
is what the search on grids checks (`Interval.onGrid?_le`), whatever the grid, and dropping zeros at
the end changes nothing (`Digits.value_trim`). If no grid has an answer the search gives a number of
its own, which is small. So the shortest decimal of a finite number is at most half a unit above it,
or it is far below the largest number (`shortest_le`).
-/

namespace Hotswap.Decimal

/-- The number that digits stand for. -/
def Digits.value (d : Digits) : Rat := d.digits * 10 ^ d.exponent

/-- The ends of an interval as numbers. -/
def Interval.top (i : Interval) : Rat := i.high * 2 ^ i.exponent

/-- A multiplier and a divisor scale by what they are made for. -/
theorem scales_eq (two ten : Int) :
    ((scales two ten).1 : Rat) = (scales two ten).2 * (2 ^ two * 10 ^ ten) := by
  have hsplit : ∀ (b : Rat) (n : Int), b ≠ 0 → b ^ n.toNat = b ^ (-n).toNat * b ^ n := by
    intro b n hb
    rw [← zpow_natCast, ← zpow_natCast, ← zpow_add₀ hb]
    congr 1
    omega
  have htwo := hsplit 2 two (by norm_num)
  have hten := hsplit 10 ten (by norm_num)
  simp only [scales, Nat.pow_eq]
  push_cast
  rw [htwo, hten]
  ring

/-- The divisor is not zero. -/
theorem scales_snd_pos (two ten : Int) : 0 < (scales two ten).2 :=
  Nat.mul_pos (Nat.pow_pos (by decide)) (Nat.pow_pos (by decide))

/-- Whether a multiple lies in the interval, on a grid that a multiplier and a divisor scale to. -/
def Interval.inside (i : Interval) (mul div d : Nat) : Bool :=
  if i.closed then decide (i.low * mul ≤ d * div) && decide (d * div ≤ i.high * mul)
  else decide (i.low * mul < d * div) && decide (d * div < i.high * mul)

/-- What lies in the interval is not above its upper end. -/
theorem Interval.le_of_inside {i : Interval} {mul div d : Nat} (h : i.inside mul div d = true) :
    d * div ≤ i.high * mul := by
  unfold inside at h
  split at h
  · simp only [Bool.and_eq_true, decide_eq_true_eq] at h
    exact h.2
  · simp only [Bool.and_eq_true, decide_eq_true_eq] at h
    exact h.2.le

/-- What is found on a grid is positive and lies in the interval. -/
theorem Interval.inside_of_onGrid? {i : Interval} {tie : Tie} {ten : Int} {d : Nat}
    (h : i.onGrid? tie ten = some d) :
    0 < d ∧ i.inside (scales i.exponent (-ten)).1 (scales i.exponent (-ten)).2 d = true := by
  unfold onGrid? at h
  generalize scales i.exponent (-ten) = s at h
  obtain ⟨mul, div⟩ := s
  -- Either neighbour is an answer only where its check succeeds.
  have hlower : ∀ below, (i.inside mul div below && below != 0) = true →
      0 < below ∧ i.inside mul div below = true := by
    intro below hbelow
    simp only [Bool.and_eq_true, bne_iff_ne] at hbelow
    exact ⟨Nat.pos_of_ne_zero hbelow.2, hbelow.1⟩
  have hupper : ∀ below, i.inside mul div (below + 1) = true →
      0 < below + 1 ∧ i.inside mul div (below + 1) = true :=
    fun below hbelow => ⟨Nat.succ_pos below, hbelow⟩
  dsimp only at h
  split at h
  · cases h
  · rename_i hbelow _
    cases h
    exact hlower _ hbelow
  · rename_i _ habove
    cases h
    exact hupper _ habove
  · rename_i hbelow habove
    have heither : d = i.value * mul / div ∨ d = i.value * mul / div + 1 := by
      cases tie <;> grind
    rcases heither with rfl | rfl
    · exact hlower _ hbelow
    · exact hupper _ habove

/-- What is found on a grid is at most the upper end of the interval. -/
theorem Interval.onGrid?_le {i : Interval} {tie : Tie} {ten : Int} {d : Nat}
    (h : i.onGrid? tie ten = some d) : 0 < d ∧ (⟨d, ten⟩ : Digits).value ≤ i.top := by
  obtain ⟨hpos, hinside⟩ := inside_of_onGrid? h
  refine ⟨hpos, ?_⟩
  have hnat := le_of_inside hinside
  have hscales := scales_eq i.exponent (-ten)
  have hdiv : (0 : Rat) < (scales i.exponent (-ten)).2 := by
    exact_mod_cast scales_snd_pos i.exponent (-ten)
  have hten : (0 : Rat) < 10 ^ ten := zpow_pos (by norm_num) ten
  have hle : (d : Rat) * (scales i.exponent (-ten)).2 ≤ i.high * (scales i.exponent (-ten)).1 := by
    exact_mod_cast hnat
  rw [hscales, zpow_neg] at hle
  have hcancel : (d : Rat) ≤ i.high * (2 ^ i.exponent * (10 ^ ten)⁻¹) := by
    refine le_of_mul_le_mul_right ?_ hdiv
    linarith
  calc (d : Rat) * 10 ^ ten ≤ i.high * (2 ^ i.exponent * (10 ^ ten)⁻¹) * 10 ^ ten :=
        mul_le_mul_of_nonneg_right hcancel hten.le
    _ = i.top := by
        unfold top
        field_simp

/-! ## The search -/

/-- Dropping zeros at the end changes neither the number nor whether it is zero. -/
theorem Digits.value_trim (fuel : Nat) (d : Digits) :
    (d.trim fuel).value = d.value ∧ (0 < d.digits → 0 < (d.trim fuel).digits) := by
  induction fuel generalizing d with
  | zero => exact ⟨rfl, id⟩
  | succ fuel ih =>
    rw [trim]
    split
    · rename_i hzero
      obtain ⟨hvalue, hpos⟩ := ih ⟨d.digits / 10, d.exponent + 1⟩
      refine ⟨hvalue.trans ?_, fun _ => hpos (by show 0 < d.digits / 10; omega)⟩
      have hten : ((d.digits / 10 : Nat) : Rat) * 10 = d.digits := by
        exact_mod_cast Nat.div_mul_cancel (Nat.dvd_of_mod_eq_zero hzero.2)
      show ((d.digits / 10 : Nat) : Rat) * 10 ^ (d.exponent + 1) = d.digits * 10 ^ d.exponent
      rw [zpow_add₀ (by norm_num), zpow_one, ← hten]
      ring
    · exact ⟨rfl, id⟩

/-- The search gives a positive number that is at most the upper end of the interval, or what it
gives at the end. -/
theorem Interval.search_le {i : Interval} {tie : Tie} {bound : Rat} (hvalue : 0 < i.value)
    (htop : i.top ≤ bound) {fuel : Nat} {ten : Int}
    (hlast : (⟨i.value, ten - fuel⟩ : Digits).value ≤ bound) :
    0 < (i.search tie fuel ten).digits ∧ (i.search tie fuel ten).value ≤ bound := by
  induction fuel generalizing ten with
  | zero =>
    rw [Int.natCast_zero, Int.sub_zero] at hlast
    exact ⟨hvalue, hlast⟩
  | succ fuel ih =>
    rw [search]
    split
    · rename_i d hd
      obtain ⟨hpos, hle⟩ := onGrid?_le hd
      obtain ⟨hsame, hkeeps⟩ := Digits.value_trim 20 ⟨d, ten⟩
      exact ⟨hkeeps hpos, hsame ▸ hle.trans htop⟩
    · refine ih ?_
      rwa [show ten - 1 - (fuel : Int) = ten - ((fuel + 1 : Nat) : Int) by push_cast; omega]

/-- The decimal exponent of a number in range is at most that of the largest numbers. -/
theorem decimalExponent_le {m : Nat} {q : Int} (h : m.log2 + q ≤ 1023) :
    decimalExponent m q ≤ 308 := by
  have hguess : Int.fdiv ((m.log2 + q) * 30103) 100000 ≤ 307 := by
    rw [Int.fdiv_eq_ediv_of_nonneg _ (by decide)]
    omega
  unfold decimalExponent
  dsimp only
  split
  · omega
  · split
    · omega
    · omega

/-- **The shortest decimal of a number is at most half a unit above it**, or it is far below the
largest number. -/
theorem shortest_le (tie : Tie) {m : Nat} {q : Int} {bound : Rat} (hpos : 0 < m) (hm : m < 2 ^ 53)
    (hq : q ≤ 971) (hhalf : (m + 1 / 2) * 2 ^ q ≤ bound) (hsmall : 2 ^ 55 * 10 ^ 290 ≤ bound) :
    0 < (shortest .double tie m q).digits ∧ (shortest .double tie m q).value ≤ bound := by
  have hlog : m.log2 < 53 := (Nat.log2_lt hpos.ne').2 hm
  have hexponent : decimalExponent m q ≤ 308 := decimalExponent_le (by omega)
  refine Interval.search_le (by show 0 < 4 * m; omega) ?_ ?_
  · have htop : (Interval.around .double m q).top = (m + 1 / 2) * 2 ^ q := by
      show ((4 * m + 2 : Nat) : Rat) * 2 ^ (q - 2) = _
      rw [zpow_sub₀ (by norm_num)]
      push_cast
      ring
    rw [htop]
    exact hhalf
  · -- Eighteen grids down the power of ten is at most the 290th.
    have hten : (10 : Rat) ^ (decimalExponent m q - 18) ≤ 10 ^ 290 := by
      rw [← zpow_natCast]
      exact zpow_le_zpow_right₀ (by norm_num) (by push_cast; omega)
    have hfour : ((4 * m : Nat) : Rat) ≤ 2 ^ 55 := by
      have hnat : 4 * m ≤ 2 ^ 55 := by omega
      exact_mod_cast hnat
    refine le_trans ?_ hsmall
    exact mul_le_mul hfour hten (zpow_pos (by norm_num) _).le (by positivity)

end Hotswap.Decimal
