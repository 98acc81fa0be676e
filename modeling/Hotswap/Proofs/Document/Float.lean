import Hotswap.Proofs.Decimal.Shortest
import Hotswap.Proofs.Document.Reader
import Hotswap.Proofs.Document.Scaling

/-!
# Floating-point numbers that are written and read

A finite floating-point number is written as a numeral (`isWritten_ofFloat`), and the numeral is not
refused when it is read (`numberOf?_finite_isSome`): the shortest decimal of a number is at most
half a unit above it, so only the two largest numbers come closer to the end of the range than the
roundings of the reader allow for, and the numerals of these two are accepted as well. What is not
finite is written as `null`.
-/

namespace Hotswap.Document

open Decimal Binary64

/-! ## Reading the parts of a numeral -/

/-- The characters of a sign. -/
def signChars (negative : Bool) : List Char := if negative then ['-'] else []

/-- A sign that is written is taken off. -/
theorem takeSign_signChars (negative : Bool) {whole : List Char} (h : IsDigits whole)
    (rest : List Char) :
    takeSign (signChars negative ++ (whole ++ rest)) = (negative, whole ++ rest) := by
  cases negative with
  | true => rfl
  | false => exact takeSign_append_of_isDigits h rest

/-- A numeral with decimals is read by collecting its digits and scaling them. -/
theorem numberOf?_decimals (negative : Bool) {whole ds mark : List Char} (hwhole : IsDigits whole)
    (hds : ∀ c ∈ ds, c.isDigit = true) (hmark : HeadNot Char.isDigit mark) :
    numberOf? (String.ofList (signChars negative ++ (whole ++ '.' :: (ds ++ mark)))) =
      (finishFloat negative (collectDecimals (collectWhole false ⟨0, 0⟩ whole).1 ds)
        (readMark mark)).map .float := by
  have hpoint : HeadNot Char.isDigit ('.' :: (ds ++ mark)) := headNot_cons (by decide)
  unfold numberOf?
  rw [String.toList_ofList, takeSign_signChars negative hwhole]
  dsimp only
  rw [takeWhile_append_of_headNot hwhole.2 hpoint, dropWhile_append_of_headNot hwhole.2 hpoint]
  show (finishFloat negative (collectDecimals _ ((ds ++ mark).takeWhile Char.isDigit))
    (readMark ((ds ++ mark).dropWhile Char.isDigit))).map Number.float = _
  rw [takeWhile_append_of_headNot hds hmark, dropWhile_append_of_headNot hds hmark]

/-- A numeral with an exponent and without decimals is read in the same way. -/
theorem numberOf?_mark (negative : Bool) {whole rest : List Char} (hwhole : IsDigits whole) :
    numberOf? (String.ofList (signChars negative ++ (whole ++ 'e' :: rest))) =
      (finishFloat negative (collectWhole false ⟨0, 0⟩ whole).1 (readMark ('e' :: rest))).map
        .float := by
  have hmark : HeadNot Char.isDigit ('e' :: rest) := headNot_cons (by decide)
  unfold numberOf?
  rw [String.toList_ofList, takeSign_signChars negative hwhole]
  dsimp only
  rw [takeWhile_append_of_headNot hwhole.2 hmark, dropWhile_append_of_headNot hwhole.2 hmark]
  rfl

/-- An exponent that is written is read back. -/
theorem readMark_exponent (first : Int) :
    readMark ('e' :: (if first < 0 then '-' else '+') :: Nat.toDigits 10 first.natAbs) =
      some (decide (first < 0), first.natAbs) := by
  by_cases h : first < 0
  · rw [if_pos h, decide_eq_true h]
    show some (true, natOfDigits (Nat.toDigits 10 first.natAbs)) = _
    rw [natOfDigits_toDigits]
  · rw [if_neg h, decide_eq_false h]
    show some (false, natOfDigits (Nat.toDigits 10 first.natAbs)) = _
    rw [natOfDigits_toDigits]

/-! ## The numerals of digits -/

/-- A digit is a whole number. -/
theorem isWhole_singleton {d : Char} (h : d.isDigit = true) : IsWhole [d] := by
  refine ⟨⟨List.cons_ne_nil _ _, List.forall_mem_singleton.2 h⟩, fun hzero => ?_⟩
  cases hzero
  rfl

/-- Zeros are digits. -/
theorem isDigit_of_mem_zeros {n : Nat} {c : Char} (h : c ∈ FloatStyle.zeros n) :
    c.isDigit = true := by
  rw [List.eq_of_mem_replicate h]
  rfl

/-- Only the digits of zero begin with a zero. -/
theorem eq_zero_of_head_toDigits {n : Nat} (h : (Nat.toDigits 10 n).head? = some '0') : n = 0 := by
  by_contra hn
  exact head_toDigits_ne_zero hn h

/-- Digits with zeros behind them are a whole number. -/
theorem isWhole_toDigits_append_zeros {n m : Nat} (h : n = 0 → m = 0) :
    IsWhole (Nat.toDigits 10 n ++ FloatStyle.zeros m) := by
  refine ⟨⟨fun hnil => Nat.toDigits_ne_nil (List.append_eq_nil_iff.1 hnil).1, ?_⟩, ?_⟩
  · intro c hc
    exact (List.mem_append.1 hc).elim Decimal.isDigit_of_mem_toDigits isDigit_of_mem_zeros
  · intro hzero
    rw [List.head?_append_of_ne_nil _ Nat.toDigits_ne_nil] at hzero
    have hn := eq_zero_of_head_toDigits hzero
    rw [h hn, hn]
    rfl

/-- So are the first digits of a number that is not zero. -/
theorem isWhole_take_toDigits {n j : Nat} (hn : n ≠ 0) (hj : 0 < j) :
    IsWhole ((Nat.toDigits 10 n).take j) := by
  refine ⟨⟨?_, fun c hc => Decimal.isDigit_of_mem_toDigits (List.mem_of_mem_take hc)⟩, ?_⟩
  · intro hnil
    rcases List.take_eq_nil_iff.1 hnil with hzero | hempty
    · omega
    · exact Nat.toDigits_ne_nil hempty
  · intro hzero
    rw [List.head?_take, if_neg (by omega)] at hzero
    exact absurd (eq_zero_of_head_toDigits hzero) hn

/-- What is left behind them are digits, if any are left. -/
theorem isDigits_drop_toDigits {n j : Nat} (h : j < (Nat.toDigits 10 n).length) :
    IsDigits ((Nat.toDigits 10 n).drop j) := by
  refine ⟨fun hnil => ?_, fun c hc => Decimal.isDigit_of_mem_toDigits (List.mem_of_mem_drop hc)⟩
  have hlength := List.drop_eq_nil_iff.1 hnil
  omega

/-- Zeros in front of digits are digits. -/
theorem isDigits_zeros_append_toDigits (n m : Nat) :
    IsDigits (FloatStyle.zeros m ++ Nat.toDigits 10 n) := by
  refine ⟨fun hnil => Nat.toDigits_ne_nil (List.append_eq_nil_iff.1 hnil).2, fun c hc => ?_⟩
  exact (List.mem_append.1 hc).elim isDigit_of_mem_zeros Decimal.isDigit_of_mem_toDigits

/-- Digits that are written positionally are whole digits, a point and decimals. -/
theorem positionalChars_eq {n : Nat} {k : Int} (h : n = 0 → k = 0) :
    ∃ whole ds,
      FloatStyle.document.positionalChars (Nat.toDigits 10 n) k = whole ++ '.' :: ds ∧
      IsWhole whole ∧ IsDigits ds ∧ whole.length ≤ max 1 ((Nat.toDigits 10 n).length + k) := by
  unfold FloatStyle.positionalChars
  dsimp only
  -- The point stands behind the digits, among them, or in front of them.
  split
  · rename_i hk
    refine ⟨Nat.toDigits 10 n ++ FloatStyle.zeros k.toNat, ['0'], rfl,
      isWhole_toDigits_append_zeros (by omega), (isWhole_singleton rfl).1, ?_⟩
    rw [List.length_append, FloatStyle.zeros, List.length_replicate]
    omega
  · rename_i hk
    split
    · rename_i hplaces
      refine ⟨_, _, rfl, isWhole_take_toDigits (fun hn => ?_) (by omega),
        isDigits_drop_toDigits (by omega), ?_⟩
      · exact absurd (h hn) (by omega)
      · rw [List.length_take]
        omega
    · refine ⟨['0'], _, rfl, isWhole_singleton rfl, isDigits_zeros_append_toDigits n _, ?_⟩
      show ((1 : Nat) : Int) ≤ _
      omega

/-- The digits of a number as a first digit and the others. -/
theorem exists_toDigits_eq_cons (n : Nat) :
    ∃ d rest, Nat.toDigits 10 n = d :: rest ∧ d.isDigit = true ∧ ∀ c ∈ rest, c.isDigit = true := by
  obtain ⟨d, rest, heq⟩ := List.exists_cons_of_ne_nil (Nat.toDigits_ne_nil (b := 10) (n := n))
  have hdigits : ∀ c ∈ d :: rest, c.isDigit = true := heq ▸ (isWhole_toDigits n).1.2
  exact ⟨d, rest, heq, (List.forall_mem_cons.1 hdigits).1, (List.forall_mem_cons.1 hdigits).2⟩

/-- A sign, a whole number, decimals and an exponent make a numeral. -/
theorem numeralChars_signChars (negative : Bool) {whole decimals exponent : List Char}
    (hwhole : IsWhole whole) (hdecimals : IsDecimals decimals) (hexponent : IsExponent exponent) :
    NumeralChars (signChars negative ++ (whole ++ (decimals ++ exponent))) := by
  have hsign : signChars negative = [] ∨ signChars negative = ['-'] := by
    cases negative with
    | true => exact .inr rfl
    | false => exact .inl rfl
  have h := NumeralChars.intro hsign hwhole hdecimals hexponent
  rwa [List.append_assoc, List.append_assoc] at h

/-- A written exponent is one. -/
theorem isExponent_exponent (first : Int) :
    IsExponent ('e' :: (if first < 0 then '-' else '+') :: Nat.toDigits 10 first.natAbs) := by
  refine .inr ⟨_, _, rfl, ?_, (isWhole_toDigits _).1⟩
  split
  · exact .inr rfl
  · exact .inl rfl

/-- What is written for digits is a numeral. -/
theorem numeralChars_magnitudeChars (negative : Bool) {d : Digits}
    (h : d.digits = 0 → d.exponent = 0) :
    NumeralChars (signChars negative ++ FloatStyle.document.magnitudeChars d) := by
  unfold FloatStyle.magnitudeChars
  dsimp only
  split
  · obtain ⟨whole, ds, heq, hwhole, hds, -⟩ := positionalChars_eq h
    have hchars := numeralChars_signChars negative hwhole (.inr ⟨ds, rfl, hds⟩) (.inl rfl)
    rw [List.append_nil] at hchars
    rw [heq]
    exact hchars
  · obtain ⟨c, rest, heq, hc, hrest⟩ := exists_toDigits_eq_cons d.digits
    rw [heq]
    generalize d.exponent + ((c :: rest).length - 1 : Nat) = first
    cases rest with
    | nil =>
      exact numeralChars_signChars negative (isWhole_singleton hc) (.inl rfl)
        (isExponent_exponent first)
    | cons c' rest =>
      exact numeralChars_signChars negative (isWhole_singleton hc)
        (.inr ⟨c' :: rest, rfl, List.cons_ne_nil _ _, hrest⟩) (isExponent_exponent first)

/-! ## Numerals that are not refused -/

/-- A number is less than ten to the number of its digits. -/
theorem ofDigitChars_lt {ds : List Char} (h : ∀ c ∈ ds, c.isDigit = true) :
    Nat.ofDigitChars 10 ds 0 < 10 ^ ds.length := by
  induction ds with
  | nil => simp
  | cons c rest ih =>
    obtain ⟨hc, hrest⟩ := List.forall_mem_cons.1 h
    have hdigit := (toNat_of_isDigit hc).2
    have hzero : '0'.toNat = 48 := rfl
    have hlow : c.toNat - '0'.toNat ≤ 9 := by omega
    have hlt := ih hrest
    rw [Nat.ofDigitChars_cons, Nat.ofDigitChars_eq_ofDigitChars_zero, List.length_cons,
      Nat.pow_succ, Nat.mul_zero, Nat.zero_add]
    have hmul := Nat.mul_le_mul_left (10 ^ rest.length) hlow
    omega

/-- Up to sixteen whole digits are all collected. -/
theorem collectWhole_short {whole : List Char} (h : ∀ c ∈ whole, c.isDigit = true)
    (hlength : whole.length ≤ 16) :
    collectWhole false ⟨0, 0⟩ whole = (⟨Nat.ofDigitChars 10 whole 0, 0⟩, false) := by
  refine collectWhole_eq (Nat.lt_of_lt_of_le (ofDigitChars_lt h) ?_)
  exact (Nat.pow_le_pow_right (by decide) hlength).trans (by decide)

/-- A number that is written positionally is not refused. -/
theorem numberOf?_positional_isSome (negative : Bool) {n : Nat} {k : Int} (h : n = 0 → k = 0)
    (hfirst : (Nat.toDigits 10 n).length + k ≤ 16) :
    (numberOf? (String.ofList (signChars negative ++
      FloatStyle.document.positionalChars (Nat.toDigits 10 n) k))).isSome = true := by
  obtain ⟨whole, ds, heq, hwhole, hds, hlength⟩ := positionalChars_eq h
  have hnumber := numberOf?_decimals negative hwhole.1 hds.2 (headNot_nil Char.isDigit)
  rw [List.append_nil] at hnumber
  rw [heq, hnumber, Option.isSome_map, collectWhole_short hwhole.1.2 (by omega)]
  exact finishFloat_none_isSome negative (collectDecimals_le _ _).1

/-- The digits of a number with an exponent are read in one way, with decimals or without. -/
theorem numberOf?_exponentChars (negative : Bool) {c : Char} {rest : List Char} (first : Int)
    (hc : c.isDigit = true) (hrest : ∀ c ∈ rest, c.isDigit = true) :
    numberOf? (String.ofList (signChars negative ++ FloatStyle.exponentChars (c :: rest) first)) =
      (finishFloat negative (collectDecimals ⟨digitValue c, 0⟩ rest)
        (some (decide (first < 0), first.natAbs))).map .float := by
  have hwhole : (collectWhole false ⟨0, 0⟩ [c]).1 = ⟨digitValue c, 0⟩ := by
    rw [collectWhole_short (List.forall_mem_singleton.2 hc) (by simp)]
    simp [Nat.ofDigitChars_cons, digitValue]
  rw [← readMark_exponent, ← hwhole]
  generalize hmark : (if first < 0 then '-' else '+') :: Nat.toDigits 10 first.natAbs = mark
  cases rest with
  | nil =>
    have hchars : FloatStyle.exponentChars [c] first = [c] ++ 'e' :: mark := by
      rw [← hmark]
      rfl
    rw [hchars, numberOf?_mark negative (isWhole_singleton hc).1]
    rfl
  | cons c' rest =>
    have hchars : FloatStyle.exponentChars (c :: c' :: rest) first =
        [c] ++ '.' :: ((c' :: rest) ++ 'e' :: mark) := by
      rw [← hmark]
      rfl
    rw [hchars]
    exact numberOf?_decimals negative (isWhole_singleton hc).1 hrest (headNot_cons (by decide))

/-- The first of `length + 1` digits stands for at least the power of ten of its place. -/
theorem pow_le_of_toDigits {n : Nat} {c : Char} {rest : List Char} (hpos : 0 < n)
    (h : Nat.toDigits 10 n = c :: rest) : 10 ^ rest.length ≤ n := by
  by_contra hlt
  by_cases hrest : rest.length = 0
  · rw [hrest] at hlt
    omega
  · have hlength := (Nat.length_toDigits_le_iff (b := 10) (by decide)
      (Nat.pos_of_ne_zero hrest)).2 (Nat.lt_of_not_le hlt)
    rw [h, List.length_cons] at hlength
    omega

/-- A number up to `decimalLimit` that is written with an exponent is not refused. -/
theorem numberOf?_exponent_isSome (negative : Bool) {d : Digits} (hpos : 0 < d.digits)
    (hlimit : d.value ≤ decimalLimit) :
    (numberOf? (String.ofList (signChars negative ++
      FloatStyle.exponentChars (Nat.toDigits 10 d.digits)
        (d.exponent + ((Nat.toDigits 10 d.digits).length - 1 : Nat))))).isSome = true := by
  obtain ⟨c, rest, heq, hc, hrest⟩ := exists_toDigits_eq_cons d.digits
  have hall : Nat.ofDigitChars 10 rest (digitValue c) = d.digits := by
    have hvalue := natOfDigits_toDigits d.digits
    rw [heq] at hvalue
    simpa [natOfDigits, Nat.ofDigitChars_eq_foldl, digitValue] using hvalue
  obtain ⟨hexponent, hcollected⟩ := collectDecimals_le ⟨digitValue c, 0⟩ rest
  rw [hall] at hcollected
  generalize hfirst : d.exponent + ((Nat.toDigits 10 d.digits).length - 1 : Nat) = first
  have hplace : first = d.exponent + rest.length := by
    rw [← hfirst, heq]
    simp
  rw [heq, numberOf?_exponentChars negative first hc hrest, Option.isSome_map]
  refine finishFloat_some_isSome negative hexponent fun hdown => ?_
  have hnonneg : 0 ≤ first := by simpa using hdown
  have hsame : (first.natAbs : Int) = first := by omega
  have hten : (0 : Rat) < 10 ^ first := zpow_pos (by norm_num) _
  constructor
  · -- The first digit alone stands for `10 ^ first`.
    have hfirstDigit : (10 : Rat) ^ first ≤ d.value := by
      have hpow : ((10 ^ rest.length : Nat) : Rat) ≤ d.digits := by
        exact_mod_cast pow_le_of_toDigits hpos heq
      push_cast at hpow
      unfold Digits.value
      rw [hplace, zpow_add₀ (by norm_num), zpow_natCast, mul_comm]
      exact mul_le_mul_of_nonneg_right hpow (zpow_pos (by norm_num) _).le
    have hlt := (zpow_lt_zpow_iff_right₀ (by norm_num : (1 : Rat) < 10)).1
      ((hfirstDigit.trans hlimit).trans_lt decimalLimit_lt)
    omega
  · refine le_trans ?_ hlimit
    rw [hsame, zpow_add₀ (by norm_num), ← mul_assoc]
    calc _ ≤ (d.digits : Rat) * 10 ^ ((0 : Int) - rest.length) * 10 ^ first :=
          mul_le_mul_of_nonneg_right hcollected hten.le
      _ = d.value := by
          unfold Digits.value
          rw [mul_assoc, ← zpow_add₀ (by norm_num), hplace]
          congr 2
          omega

/-- What is written for a number up to `decimalLimit` is not refused. -/
theorem numberOf?_magnitudeChars_isSome (negative : Bool) {d : Digits} (hpos : 0 < d.digits)
    (hlimit : d.value ≤ decimalLimit) :
    (numberOf? (String.ofList (signChars negative ++
      FloatStyle.document.magnitudeChars d))).isSome = true := by
  unfold FloatStyle.magnitudeChars
  dsimp only
  split
  · rename_i hfirst
    have hlength : 0 < (Nat.toDigits 10 d.digits).length := Nat.length_toDigits_pos
    have hhigh : d.exponent + ((Nat.toDigits 10 d.digits).length - 1 : Nat) ≤ 15 := by
      simp only [FloatStyle.document, Bool.and_eq_true, decide_eq_true_eq] at hfirst
      exact hfirst.2
    exact numberOf?_positional_isSome negative (fun hzero => absurd hzero hpos.ne') (by omega)
  · exact numberOf?_exponent_isSome negative hpos hlimit

/-! ## The numerals of floating-point numbers -/

/-- The digits that are written for a finite number. -/
def writtenDigits (m : Nat) (q : Int) : Digits :=
  if m = 0 then ⟨0, 0⟩ else shortest .double .toEven m q

/-- The two largest numbers come closer to the end of the range than `decimalLimit`, but the
roundings of their numerals do not add up. -/
theorem numberOf?_largest_isSome : ∀ (negative : Bool), ∀ m ∈ [2 ^ 53 - 2, 2 ^ 53 - 1],
    (numberOf? (String.ofList (signChars negative ++
      FloatStyle.document.magnitudeChars (writtenDigits m 971)))).isSome = true := by
  decide +kernel

/-- The numeral of zero stands for a number, with either sign. -/
theorem numberOf?_zero_isSome : ∀ (negative : Bool),
    (numberOf? (String.ofList (signChars negative ++
      FloatStyle.document.magnitudeChars ⟨0, 0⟩))).isSome = true := by
  decide +kernel

/-- Zero is written without an exponent. -/
theorem writtenDigits_eq_zero {m : Nat} {q : Int} (hm : m < 2 ^ 53) (hq : q ≤ 971)
    (h : (writtenDigits m q).digits = 0) : (writtenDigits m q).exponent = 0 := by
  unfold writtenDigits at h ⊢
  split at h
  · rename_i hzero
    rw [if_pos hzero]
  · rename_i hzero
    have hpos := (shortest_le .toEven (Nat.pos_of_ne_zero hzero) hm hq
      (le_max_left _ _) (le_max_right _ _)).1
    omega

/-- Half a unit above every finite number but the two largest is at most `decimalLimit`. -/
theorem half_unit_above_le {m : Nat} {q : Int} (hm : m < 2 ^ 53) (hq : q ≤ 971)
    (hlargest : q = 971 → m + 3 ≤ 2 ^ 53) : (m + 1 / 2) * 2 ^ q ≤ decimalLimit := by
  have htop := two_pow_le_topUnit
  unfold decimalLimit
  by_cases hlast : q = 971
  · subst hlast
    have hcast : ((m + 3 : Nat) : Rat) ≤ ((2 ^ 53 : Nat) : Rat) := Nat.cast_le.2 (hlargest rfl)
    push_cast at hcast
    exact mul_le_mul_of_nonneg_right (by linarith) (zpow_pos (by norm_num) _).le
  · have hpow : (2 : Rat) ^ q * 2 ≤ topUnit := by
      rw [← zpow_add_one₀ (by norm_num)]
      exact zpow_le_zpow_right₀ (by norm_num) (by omega)
    have hpos : (0 : Rat) < 2 ^ q := zpow_pos (by norm_num) q
    have hcast : ((m + 1 : Nat) : Rat) ≤ ((2 ^ 53 : Nat) : Rat) := Nat.cast_le.2 hm
    push_cast at hcast
    calc ((m : Rat) + 1 / 2) * 2 ^ q ≤ 2 ^ 53 * 2 ^ q :=
          mul_le_mul_of_nonneg_right (by linarith) hpos.le
      _ ≤ (2 ^ 53 - 5 / 2) * topUnit := by linarith

/-- **The numeral of a finite number is not refused.** -/
theorem numberOf?_finite_isSome (negative : Bool) {m : Nat} {q : Int} (hm : m < 2 ^ 53)
    (hq : q ≤ 971) :
    (numberOf? (String.ofList (signChars negative ++
      FloatStyle.document.magnitudeChars (writtenDigits m q)))).isSome = true := by
  by_cases hlargest : q = 971 ∧ 2 ^ 53 ≤ m + 2
  · obtain ⟨rfl, hle⟩ := hlargest
    have hmem : m ∈ [2 ^ 53 - 2, 2 ^ 53 - 1] := by
      simp only [List.mem_cons, List.not_mem_nil, or_false]
      omega
    exact numberOf?_largest_isSome negative m hmem
  · by_cases hzero : m = 0
    · rw [writtenDigits, if_pos hzero]
      exact numberOf?_zero_isSome negative
    · have hhalf := half_unit_above_le hm hq (by omega)
      obtain ⟨hpos, hvalue⟩ := shortest_le .toEven (Nat.pos_of_ne_zero hzero) hm hq hhalf
        two_pow_mul_ten_pow_le_decimalLimit
      rw [writtenDigits, if_neg hzero]
      exact numberOf?_magnitudeChars_isSome negative hpos hvalue

/-! ## Finite numbers -/

/-- The parts of a number of 64 bits, with the sizes of its fields written out. -/
theorem parts_double (bits : Nat) :
    BinaryFormat.double.parts bits =
      if bits / 2 ^ 52 % 2 ^ 11 = 2047 then
        if bits % 2 ^ 52 = 0 then .infinite (bits / 2 ^ 63 % 2 == 1) else .nan
      else if bits / 2 ^ 52 % 2 ^ 11 = 0 then
        .finite (bits / 2 ^ 63 % 2 == 1) (bits % 2 ^ 52) (-1074)
      else
        .finite (bits / 2 ^ 63 % 2 == 1) (2 ^ 52 + bits % 2 ^ 52)
          (-1074 + (bits / 2 ^ 52 % 2 ^ 11 - 1 : Nat)) := by
  rfl

/-- A finite number has a significand of at most 53 bits and an exponent in range. -/
theorem parts_bounds {bits : Nat} {negative : Bool} {m : Nat} {q : Int}
    (h : BinaryFormat.double.parts bits = .finite negative m q) : m < 2 ^ 53 ∧ q ≤ 971 := by
  have hfield : bits / 2 ^ 52 % 2 ^ 11 < 2 ^ 11 := Nat.mod_lt _ (by decide)
  have hfraction : bits % 2 ^ 52 < 2 ^ 52 := Nat.mod_lt _ (by decide)
  rw [parts_double] at h
  split at h
  · split at h <;> cases h
  · split at h
    · cases h
      omega
    · cases h
      omega

/-- A number is finite exactly if its exponent is not the one of the infinities. -/
theorem isFinite_iff_field (x : Float) :
    x.isFinite = true ↔ x.toBits.toNat / 2 ^ 52 % 2 ^ 11 ≠ 2047 := by
  have hfield : (@Float.Model.UnpackedFloat.unpackExponent .binary64 x.toBits.toBitVec).toNat =
      x.toBits.toNat / 2 ^ 52 % 2 ^ 11 := by
    show (x.toBits.toBitVec.toNat >>> 52) % 2 ^ 11 = _
    rw [Nat.shiftRight_eq_div_pow]
    rfl
  have hones : (-1#11).toNat = 2047 := by decide
  rw [← hfield, ← hones, ne_eq, BitVec.toNat_inj]
  show (Float.Model.UnpackedFloat.unpack .binary64 x.toBits.toBitVec).isFinite = true ↔ _
  unfold Float.Model.UnpackedFloat.unpack
  dsimp only
  split
  · rename_i hinfinite
    refine ⟨fun hfinite => ?_, fun h => absurd hinfinite h⟩
    split at hfinite <;> cases hfinite
  · rename_i hinfinite
    split
    · split
      · exact ⟨fun _ => hinfinite, fun _ => rfl⟩
      · exact ⟨fun _ => hinfinite, fun _ => rfl⟩
    · exact ⟨fun _ => hinfinite, fun _ => rfl⟩

/-- A number is finite exactly if it has digits and an exponent. -/
theorem isFinite_iff (x : Float) :
    x.isFinite = true ↔ ∃ negative m q,
      BinaryFormat.double.parts x.toBits.toNat = .finite negative m q := by
  rw [isFinite_iff_field, parts_double]
  constructor
  · intro hfield
    rw [if_neg hfield]
    split
    · exact ⟨_, _, _, rfl⟩
    · exact ⟨_, _, _, rfl⟩
  · rintro ⟨negative, m, q, h⟩ hfield
    rw [if_pos hfield] at h
    split at h <;> cases h

/-! ## Documents of floating-point numbers -/

/-- A finite number is written as the numeral of its digits. -/
theorem ofFloat_of_isFinite {x : Float} (h : x.isFinite = true) :
    ∃ negative m q, m < 2 ^ 53 ∧ q ≤ 971 ∧ ofFloat x = .number (String.ofList
      (signChars negative ++ FloatStyle.document.magnitudeChars (writtenDigits m q))) := by
  obtain ⟨negative, m, q, hparts⟩ := (isFinite_iff x).1 h
  obtain ⟨hm, hq⟩ := parts_bounds hparts
  refine ⟨negative, m, q, hm, hq, ?_⟩
  unfold ofFloat FloatStyle.render64 FloatStyle.render
  rw [hparts]
  cases negative <;> rfl

/-- What is not finite is written as `null`. -/
theorem ofFloat_of_not_isFinite {x : Float} (h : x.isFinite = false) : ofFloat x = .null := by
  unfold ofFloat
  split
  · rename_i hparts
    rw [(isFinite_iff x).2 ⟨_, _, _, hparts⟩] at h
    cases h
  · rfl

/-- **A floating-point number can be written.** -/
theorem isWritten_ofFloat (x : Float) : (ofFloat x).IsWritten := by
  cases h : x.isFinite with
  | true =>
    obtain ⟨negative, m, q, hm, hq, hnumeral⟩ := ofFloat_of_isFinite h
    have hchars := numeralChars_magnitudeChars negative (writtenDigits_eq_zero hm hq)
    rw [hnumeral]
    show NumeralChars (String.toList _)
    rwa [String.toList_ofList]
  | false =>
    rw [ofFloat_of_not_isFinite h]
    exact trivial

/-- **What is written for one can be decoded.** -/
theorem isReadable_ofFloat (levels : Nat) (x : Float) : (ofFloat x).isReadable levels = true := by
  cases h : x.isFinite with
  | true =>
    obtain ⟨negative, m, q, hm, hq, hnumeral⟩ := ofFloat_of_isFinite h
    rw [hnumeral, isReadable]
    exact numberOf?_finite_isSome negative hm hq
  | false =>
    rw [ofFloat_of_not_isFinite h]
    rfl

end Hotswap.Document
