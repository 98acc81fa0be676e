import Hotswap.Document.Printer
import Hotswap.Document.Number
import Hotswap.Document.Reader
import Hotswap.Proofs.Decimal.Digits

/-!
# Numbers that are written and read

A numeral is a sign, whole digits, decimals and an exponent, of which only the whole digits must be
there. The reader of documents finds the end of a numeral (`NumeralChars.taken`). The numeral of an
integer that fits in 64 bits stands for the integer (`numberOf?_repr`, `numberOf?_neg_repr`).
-/

namespace Hotswap.Document

/-! ## Numerals -/

/-- One digit or more. -/
def IsDigits (cs : List Char) : Prop := cs ≠ [] ∧ ∀ c ∈ cs, c.isDigit = true

/-- The whole part of a numeral: no zero in front of other digits. -/
def IsWhole (cs : List Char) : Prop := IsDigits cs ∧ (cs.head? = some '0' → cs = ['0'])

/-- The decimals of a numeral. -/
def IsDecimals (cs : List Char) : Prop := cs = [] ∨ ∃ ds, cs = '.' :: ds ∧ IsDigits ds

/-- The exponent of a numeral. -/
def IsExponent (cs : List Char) : Prop :=
  cs = [] ∨ ∃ sign ds, cs = 'e' :: sign :: ds ∧ (sign = '+' ∨ sign = '-') ∧ IsDigits ds

/-- The characters of a numeral. -/
inductive NumeralChars : List Char → Prop
  | intro {sign whole decimals exponent : List Char} (hsign : sign = [] ∨ sign = ['-'])
      (hwhole : IsWhole whole) (hdecimals : IsDecimals decimals) (hexponent : IsExponent exponent) :
      NumeralChars (sign ++ whole ++ decimals ++ exponent)

/-- Whether a numeral can go on with a character. -/
def isNumeralChar (c : Char) : Bool := c.isDigit || c == '.' || c == 'e' || c == 'E'

/-- No numeral goes on here. -/
def EndsNumeral (rest : List Char) : Prop := HeadNot isNumeralChar rest

/-- What ends a numeral is no digit. -/
theorem headNot_isDigit_of_endsNumeral {rest : List Char} (h : EndsNumeral rest) :
    HeadNot Char.isDigit rest := by
  intro c hc
  have hall := h c hc
  simp only [isNumeralChar, Bool.or_eq_false_iff] at hall
  exact hall.1.1.1

/-- Digits are taken up to what is none. -/
theorem IsDigits.taken {ds rest : List Char} (h : IsDigits ds) (hrest : HeadNot Char.isDigit rest) :
    takeDigits (ds ++ rest) = some (ds, rest) := by
  unfold takeDigits
  simp only [takeWhile_append_of_headNot h.2 hrest, dropWhile_append_of_headNot h.2 hrest]
  simp [h.1]

/-- So is a whole number. -/
theorem IsWhole.taken {ds rest : List Char} (h : IsWhole ds) (hrest : HeadNot Char.isDigit rest) :
    takeWhole (ds ++ rest) = some (ds, rest) := by
  unfold takeWhole
  rw [h.1.taken hrest]
  split
  · rename_i heq
    cases heq
    have hsingle := h.2 rfl
    simp at hsingle
  · rfl

/-- So is an exponent. -/
theorem IsExponent.taken {cs rest : List Char} (h : IsExponent cs) (hrest : EndsNumeral rest) :
    takeExponent (cs ++ rest) = some (cs, rest) := by
  rcases h with rfl | ⟨sign, ds, rfl, hsign, hds⟩
  · cases rest with
    | nil => rfl
    | cons c cs =>
      have hc := hrest c rfl
      simp only [isNumeralChar, Bool.or_eq_false_iff, beq_eq_false_iff_ne] at hc
      simp [takeExponent, hc.1.2, hc.2]
  · have hdigits := hds.taken (headNot_isDigit_of_endsNumeral hrest)
    rcases hsign with rfl | rfl <;> simp [takeExponent, hdigits]

/-- An exponent does not go on with a digit, nor with the point of decimals. -/
theorem IsExponent.headNot {cs rest : List Char} (h : IsExponent cs) (hrest : EndsNumeral rest) :
    HeadNot (fun c => c.isDigit || c == '.') (cs ++ rest) := by
  rcases h with rfl | ⟨sign, ds, rfl, -, -⟩
  · intro c hc
    have hall := hrest c hc
    simp only [isNumeralChar, Bool.or_eq_false_iff] at hall ⊢
    exact hall.1.1
  · exact headNot_cons (by decide)

/-- So are decimals, if no further point follows. -/
theorem IsDecimals.taken {cs rest : List Char} (h : IsDecimals cs)
    (hrest : HeadNot (fun c => c.isDigit || c == '.') rest) :
    takeDecimals (cs ++ rest) = some (cs, rest) := by
  rcases h with rfl | ⟨ds, rfl, hds⟩
  · cases rest with
    | nil => rfl
    | cons c cs =>
      have hc := hrest c rfl
      simp only [Bool.or_eq_false_iff, beq_eq_false_iff_ne] at hc
      simp [takeDecimals, hc.2]
  · have hdigit : HeadNot Char.isDigit rest := by
      intro c hc
      have hall := hrest c hc
      simp only [Bool.or_eq_false_iff] at hall
      exact hall.1
    simp [takeDecimals, hds.taken hdigit]

/-- Decimals begin with no digit. -/
theorem IsDecimals.headNot {cs rest : List Char} (h : IsDecimals cs)
    (hrest : HeadNot Char.isDigit rest) : HeadNot Char.isDigit (cs ++ rest) := by
  rcases h with rfl | ⟨ds, rfl, -⟩
  · exact hrest
  · exact headNot_cons (by decide)

/-- Splits a numeral off, after its sign. -/
def takeMagnitude (sign cs : List Char) : Option (List Char × List Char) := do
  let (whole, cs) ← takeWhole cs
  let (decimals, cs) ← takeDecimals cs
  let (exponent, cs) ← takeExponent cs
  return (sign ++ whole ++ decimals ++ exponent, cs)

/-- A sign is taken first. -/
theorem takeNumeral_minus (cs : List Char) : takeNumeral ('-' :: cs) = takeMagnitude ['-'] cs :=
  rfl

/-- Without one the magnitude is taken. -/
theorem takeNumeral_of_head {cs : List Char} (h : cs.head? ≠ some '-') :
    takeNumeral cs = takeMagnitude [] cs := by
  unfold takeNumeral
  split
  rename_i heq
  split at heq
  · exact absurd rfl h
  · cases heq
    rfl

/-- **A numeral is split off**, up to where no numeral goes on. -/
theorem NumeralChars.taken {cs rest : List Char} (h : NumeralChars cs) (hrest : EndsNumeral rest) :
    takeNumeral (cs ++ rest) = some (cs, rest) := by
  obtain ⟨hsign, hwhole, hdecimals, hexponent⟩ := h
  rename_i sign whole decimals exponent
  have hafter := hexponent.headNot hrest
  have hdigit : HeadNot Char.isDigit (exponent ++ rest) := by
    intro c hc
    have hall := hafter c hc
    simp only [Bool.or_eq_false_iff] at hall
    exact hall.1
  have hmagnitude : takeMagnitude sign (whole ++ (decimals ++ (exponent ++ rest))) =
      some (sign ++ whole ++ decimals ++ exponent, rest) := by
    unfold takeMagnitude
    rw [hwhole.taken (hdecimals.headNot hdigit)]
    dsimp only [bind, Option.bind]
    rw [hdecimals.taken hafter]
    dsimp only
    rw [hexponent.taken hrest]
    rfl
  rw [← hmagnitude]
  rcases hsign with rfl | rfl
  · obtain ⟨c, cs, hcs⟩ := List.exists_cons_of_ne_nil hwhole.1.1
    have hc : c.isDigit = true := hwhole.1.2 c (hcs ▸ List.mem_cons_self)
    have hhead : ([] ++ whole ++ decimals ++ exponent ++ rest).head? ≠ some '-' := by
      rw [hcs]
      intro hminus
      cases hminus
      revert hc
      decide
    rw [takeNumeral_of_head hhead]
    simp
  · simp [takeNumeral_minus]

/-- A text that is a numeral. -/
def IsNumeral (numeral : String) : Prop := NumeralChars numeral.toList

/-- A numeral starts with a sign or with a digit. -/
theorem NumeralChars.head {cs : List Char} (h : NumeralChars cs) :
    ∃ c rest, cs = c :: rest ∧ (c = '-' ∨ c.isDigit = true) := by
  obtain ⟨hsign, hwhole, -, -⟩ := h
  rcases hsign with rfl | rfl
  · obtain ⟨c, cs, hcs⟩ := List.exists_cons_of_ne_nil hwhole.1.1
    refine ⟨c, _, by rw [hcs]; rfl, .inr (hwhole.1.2 c (hcs ▸ List.mem_cons_self))⟩
  · exact ⟨'-', _, rfl, .inl rfl⟩

/-- A numeral is text. -/
theorem NumeralChars.strayByte_not_mem {cs : List Char} (h : NumeralChars cs) :
    Text.strayByte ∉ cs := by
  have hdigits : ∀ {ds : List Char}, IsDigits ds → Text.strayByte ∉ ds := by
    intro ds hds hmem
    have hdigit := hds.2 _ hmem
    revert hdigit
    decide
  obtain ⟨hsign, hwhole, hdecimals, hexponent⟩ := h
  simp only [List.mem_append, not_or]
  refine ⟨⟨⟨?_, hdigits hwhole.1⟩, ?_⟩, ?_⟩
  · rcases hsign with rfl | rfl <;> decide
  · rcases hdecimals with rfl | ⟨ds, rfl, hds⟩
    · exact List.not_mem_nil
    · exact List.not_mem_cons_of_ne_of_not_mem (by decide) (hdigits hds)
  · rcases hexponent with rfl | ⟨sign, ds, rfl, hsign, hds⟩
    · exact List.not_mem_nil
    · refine List.not_mem_cons_of_ne_of_not_mem (by decide)
        (List.not_mem_cons_of_ne_of_not_mem ?_ (hdigits hds))
      rcases hsign with rfl | rfl <;> decide

/-! ## Integers -/

/-- The digits of a number are the whole part of a numeral. -/
theorem isWhole_toDigits (n : Nat) : IsWhole (Nat.toDigits 10 n) := by
  refine ⟨⟨Nat.toDigits_ne_nil, fun c hc => Decimal.isDigit_of_mem_toDigits hc⟩, fun hzero => ?_⟩
  by_cases hn : n = 0
  · rw [hn, Nat.toDigits_zero]
  · exact absurd hzero (Decimal.head_toDigits_ne_zero hn)

/-- The digits of a natural number are a numeral. -/
theorem isNumeral_repr (n : Nat) : IsNumeral (Nat.repr n) := by
  have h := NumeralChars.intro (.inl rfl) (isWhole_toDigits n) (.inl rfl) (.inl rfl)
  simpa [IsNumeral] using h

/-- So they are with a sign. -/
theorem isNumeral_neg_repr (n : Nat) : IsNumeral ("-" ++ Nat.repr n) := by
  have h := NumeralChars.intro (.inr rfl) (isWhole_toDigits n) (.inl rfl) (.inl rfl)
  simpa [IsNumeral] using h

/-- Digits are collected as long as their number fits. -/
theorem collectWhole_eq {ds : List Char} {n : Nat} {e : Int}
    (h : Nat.ofDigitChars 10 ds n < UInt64.size) :
    collectWhole false ⟨n, e⟩ ds = (⟨Nat.ofDigitChars 10 ds n, e⟩, false) := by
  induction ds generalizing n with
  | nil => simp [collectWhole]
  | cons d ds ih =>
    have hnext : n * 10 + Decimal.digitValue d = 10 * n + (d.toNat - '0'.toNat) := by
      rw [Nat.mul_comm]
      rfl
    rw [Nat.ofDigitChars_cons] at h ⊢
    -- More digits only make a number larger.
    have hfits : n * 10 + Decimal.digitValue d < UInt64.size := by
      rw [hnext]
      refine Nat.lt_of_le_of_lt ?_ h
      rw [Nat.ofDigitChars_eq_ofDigitChars_zero]
      have hpow : 0 < 10 ^ ds.length := Nat.pow_pos (by decide)
      exact Nat.le_add_right_of_le (Nat.le_mul_of_pos_left _ hpow)
    rw [collectWhole]
    simp only [Bool.not_false, Bool.true_and, decide_eq_true hfits, if_true]
    rw [hnext]
    exact ih h

/-- The digits of a number of 64 bits are collected to it, without dropping any. -/
theorem collectWhole_toDigits {n : Nat} (h : n < UInt64.size) :
    collectWhole false ⟨0, 0⟩ (Nat.toDigits 10 n) = (⟨n, 0⟩, false) := by
  have hvalue : Nat.ofDigitChars 10 (Nat.toDigits 10 n) 0 = n := Nat.ofDigitChars_ten_toDigits
  rw [collectWhole_eq (by rw [hvalue]; exact h), hvalue]

/-- All digits are digits. -/
theorem takeWhile_toDigits (n : Nat) :
    (Nat.toDigits 10 n).takeWhile Char.isDigit = Nat.toDigits 10 n := by
  have h := takeWhile_append_of_headNot (isWhole_toDigits n).1.2 (headNot_nil _)
  rwa [List.append_nil] at h

/-- Nothing is left behind them. -/
theorem dropWhile_toDigits (n : Nat) : (Nat.toDigits 10 n).dropWhile Char.isDigit = [] := by
  have h := dropWhile_append_of_headNot (isWhole_toDigits n).1.2 (headNot_nil _)
  rwa [List.append_nil] at h

/-- Digits have no sign in front. -/
theorem takeSign_append_of_isDigits {whole : List Char} (h : IsDigits whole) (rest : List Char) :
    Decimal.takeSign (whole ++ rest) = (false, whole ++ rest) := by
  obtain ⟨c, cs, rfl⟩ := List.exists_cons_of_ne_nil h.1
  have hc : c.isDigit = true := h.2 c List.mem_cons_self
  unfold Decimal.takeSign
  split
  · rename_i heq
    cases heq
    exact absurd hc (by decide)
  · rename_i heq
    cases heq
    exact absurd hc (by decide)
  · rfl

/-- There is no sign in front of them. -/
theorem takeSign_toDigits (n : Nat) :
    Decimal.takeSign (Nat.toDigits 10 n) = (false, Nat.toDigits 10 n) := by
  have h := takeSign_append_of_isDigits (isWhole_toDigits n).1 []
  rwa [List.append_nil] at h

/-- The numeral of a natural number of 64 bits stands for it. -/
theorem numberOf?_repr {n : Nat} (h : n < UInt64.size) :
    numberOf? (Nat.repr n) = some (.nat (UInt64.ofNat n)) := by
  unfold numberOf?
  simp only [Nat.toList_repr, takeSign_toDigits, takeWhile_toDigits, dropWhile_toDigits,
    collectWhole_toDigits h]
  rfl

/-- The numeral of a negative integer of 64 bits stands for it. -/
theorem numberOf?_neg_repr {n : Nat} (hpos : 0 < n) (h : n ≤ int64Bound) :
    numberOf? ("-" ++ Nat.repr n) = some (.neg (Int64.ofInt (-(n : Int)))) := by
  have hsign : Decimal.takeSign ("-" ++ Nat.repr n).toList = (true, Nat.toDigits 10 n) := by
    simp [Decimal.takeSign]
  have hfits : n < UInt64.size := Nat.lt_of_le_of_lt h (by decide)
  have hrange : ¬(n = 0 ∨ int64Bound < n) := by omega
  unfold numberOf?
  simp only [hsign, takeWhile_toDigits, dropWhile_toDigits, collectWhole_toDigits hfits, hrange]
  rfl

end Hotswap.Document
