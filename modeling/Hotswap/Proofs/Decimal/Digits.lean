import Hotswap.Decimal.Reader
import Mathlib

/-!
# Digits

Numerals are split off a text as the longest run of digits. A run of digits is found again if what
follows does not go on with a digit (`takeWhile_append_of_headNot`), and the digits of a number are
read as the number (`natOfDigits_toDigits`).
-/

namespace Hotswap

/-- The text is empty or starts with a character without the property. -/
def HeadNot (p : Char → Bool) (cs : List Char) : Prop := ∀ c ∈ cs.head?, p c = false

/-- The empty text starts with nothing. -/
theorem headNot_nil (p : Char → Bool) : HeadNot p [] := fun _ h => nomatch h

/-- A text that starts with such a character. -/
theorem headNot_cons {p : Char → Bool} {c : Char} {cs : List Char} (h : p c = false) :
    HeadNot p (c :: cs) := by
  intro d hd
  cases hd
  exact h

section runs

variable {p : Char → Bool} {taken rest : List Char}

/-- Characters with the property are taken as far as they go. -/
theorem takeWhile_append_of_headNot (htaken : ∀ c ∈ taken, p c = true) (hrest : HeadNot p rest) :
    (taken ++ rest).takeWhile p = taken := by
  rw [List.takeWhile_append_of_pos htaken]
  cases rest with
  | nil => simp
  | cons c cs => simp [hrest c rfl]

/-- What is left behind them is the rest. -/
theorem dropWhile_append_of_headNot (htaken : ∀ c ∈ taken, p c = true) (hrest : HeadNot p rest) :
    (taken ++ rest).dropWhile p = rest := by
  rw [List.dropWhile_append_of_pos htaken]
  cases rest with
  | nil => rfl
  | cons c cs => simp [hrest c rfl]

end runs

namespace Decimal

/-- The digits are the characters with the codes 48 to 57. -/
theorem toNat_of_isDigit {c : Char} (h : c.isDigit = true) : 48 ≤ c.toNat ∧ c.toNat ≤ 57 := by
  simp only [Char.isDigit, Bool.and_eq_true, decide_eq_true_eq] at h
  exact ⟨h.1, h.2⟩

/-- A number is written with digits. -/
theorem isDigit_of_mem_toDigits {n : Nat} {c : Char} (h : c ∈ Nat.toDigits 10 n) :
    c.isDigit = true :=
  Nat.isDigit_of_mem_toDigits (by decide) (by decide) h

/-- The digits of a number are read as the number. -/
theorem natOfDigits_toDigits (n : Nat) : natOfDigits (Nat.toDigits 10 n) = n :=
  Nat.ofDigitChars_ten_toDigits

/-- The digits of a number other than zero do not start with a zero. -/
theorem head_toDigits_ne_zero {n : Nat} (h : n ≠ 0) : (Nat.toDigits 10 n).head? ≠ some '0' := by
  induction n using Nat.strongRecOn with
  | ind n ih =>
    rw [Nat.toDigits_eq_if (by decide)]
    split
    · -- A digit is the zero only for the number zero.
      intro hzero
      have hdigit : n.digitChar = '0' := by simpa using hzero
      have hvalue := Nat.toNat_digitChar_of_lt_ten (n := n) (by omega)
      rw [hdigit] at hvalue
      have hlit : '0'.toNat = 48 := rfl
      omega
    · have hhigh := ih (n / 10) (by omega) (by omega)
      obtain ⟨d, ds, hds⟩ :=
        List.exists_cons_of_ne_nil (Nat.toDigits_ne_nil (n := n / 10) (b := 10))
      rw [hds] at hhigh ⊢
      exact hhigh

end Decimal

end Hotswap
