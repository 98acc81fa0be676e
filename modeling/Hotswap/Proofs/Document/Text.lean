import Hotswap.Document.Printer
import Hotswap.Document.Reader
import Mathlib

/-!
# Strings that are written and read

A string is written with escapes and stands for itself again when it is read (`textOf?_encode`).
The reader of documents finds the end of what is written (`takeString_encodeText`), and no character
of it is the mark of a stray byte.
-/

namespace Hotswap.Document

/-- The characters that have an escape of their own, and the other controls. -/
inductive Encoded : Char → List Char → Prop
  /-- A character with a letter of its own. -/
  | short {c e : Char} (h : shortEscape? e = some c) (hu : e ≠ 'u') : Encoded c ['\\', e]
  /-- A control by its number. -/
  | control {c a b : Char} (h : fourHex? '0' '0' a b = some c.toNat) (hc : c.toNat < 0x20)
      (ha : Text.strayByte ≠ a) (hb : Text.strayByte ≠ b) :
      Encoded c ['\\', 'u', '0', '0', a, b]
  /-- Any other character. -/
  | plain {c : Char} (hquote : c ≠ '"') (hslash : c ≠ '\\') (hc : 0x20 ≤ c.toNat) : Encoded c [c]

/-- A hexadecimal digit stands for its value. -/
theorem hexValue?_hexDigit : ∀ n < 16, Text.hexValue? (Text.hexDigit n) = some n := by
  decide

/-- It is no stray byte. -/
theorem strayByte_ne_hexDigit : ∀ n < 16, Text.strayByte ≠ Text.hexDigit n := by
  decide

/-- Every character is written in one of three ways. -/
theorem encoded_encodeChar (c : Char) : Encoded c (encodeChar c) := by
  unfold encodeChar
  split
  · rename_i h
    subst h
    exact .short rfl (by decide)
  split
  · rename_i h
    subst h
    exact .short rfl (by decide)
  split
  · rename_i h
    subst h
    exact .short rfl (by decide)
  split
  · rename_i h
    subst h
    exact .short rfl (by decide)
  split
  · rename_i h
    subst h
    exact .short rfl (by decide)
  split
  · rename_i h
    subst h
    exact .short rfl (by decide)
  split
  · rename_i h
    subst h
    exact .short rfl (by decide)
  split
  · rename_i hcontrol
    have hhigh := hexValue?_hexDigit (c.toNat / 16) (by omega)
    have hlow := hexValue?_hexDigit (c.toNat % 16) (by omega)
    refine .control ?_ hcontrol (strayByte_ne_hexDigit _ (by omega))
      (strayByte_ne_hexDigit _ (by omega))
    simp only [fourHex?, hhigh, hlow, show Text.hexValue? '0' = some 0 from rfl]
    congr 1
    omega
  · rename_i hquote hslash _ _ _ _ _ hplain
    exact .plain hquote hslash (by omega)

/-- A written character is decoded. -/
theorem decodeText_encoded {c : Char} {cs : List Char} (h : Encoded c cs) (rest : List Char) :
    decodeText (cs ++ rest) = (decodeText rest).map (c :: ·) := by
  cases h with
  | short h hu => simp [decodeText, h, hu]
  | control h hc _ _ =>
    have hlow : isLowSurrogate c.toNat = false := by
      simp only [isLowSurrogate, Bool.and_eq_false_iff, decide_eq_false_iff_not]
      omega
    have hhigh : isHighSurrogate c.toNat = false := by
      simp only [isHighSurrogate, Bool.and_eq_false_iff, decide_eq_false_iff_not]
      omega
    simp [decodeText, h, hlow, hhigh, Char.ofNat_toNat]
  | plain hquote hslash hc =>
    have hstray : c ≠ Text.strayByte := by
      rintro rfl
      revert hc
      decide
    simp [decodeText, hslash, hstray]

/-- A written character is passed over by the reader of strings. -/
theorem takeString_encoded {c : Char} {cs : List Char} (h : Encoded c cs) (rest : List Char) :
    takeString (cs ++ rest) = (takeString rest).map fun (raw, rest) => (cs ++ raw, rest) := by
  cases h with
  | short h hu => simp [takeString, h, hu]
  | control h hc _ _ => simp [takeString, h]
  | plain hquote hslash hc =>
    have hplain : isPlain c = true := by
      simp [isPlain, hslash, hc]
    simp [takeString, hquote, hslash, hplain]

/-- An encoded character has no stray byte. -/
theorem strayByte_not_mem_encoded {c : Char} {cs : List Char} (h : Encoded c cs) :
    Text.strayByte ∉ cs := by
  intro hmem
  cases h with
  | short h hu =>
    simp only [List.mem_cons, List.not_mem_nil, or_false] at hmem
    rcases hmem with hmem | rfl
    · revert hmem
      decide
    · revert h
      simp [shortEscape?, Text.strayByte]
  | control h hc ha hb =>
    simp only [List.mem_cons, List.not_mem_nil, or_false, ha, hb] at hmem
    revert hmem
    decide
  | plain hquote hslash hc =>
    rw [List.mem_singleton] at hmem
    subst hmem
    revert hc
    decide

/-- **What is written for a text stands for the text.** -/
theorem decodeText_encodeText (cs : List Char) : decodeText (encodeText cs) = some cs := by
  induction cs with
  | nil => rfl
  | cons c cs ih =>
    show decodeText (encodeChar c ++ encodeText cs) = _
    rw [decodeText_encoded (encoded_encodeChar c), ih]
    rfl

/-- An encoded text is taken up to the quote behind it. -/
theorem takeString_encodeText (cs rest : List Char) :
    takeString (encodeText cs ++ '"' :: rest) = some (encodeText cs, rest) := by
  induction cs with
  | nil => rfl
  | cons c cs ih =>
    show takeString (encodeChar c ++ encodeText cs ++ '"' :: rest) =
      some (encodeChar c ++ encodeText cs, rest)
    rw [List.append_assoc, takeString_encoded (encoded_encodeChar c), ih]
    rfl

/-- It has no stray byte. -/
theorem strayByte_not_mem_encodeText (cs : List Char) : Text.strayByte ∉ encodeText cs := by
  intro h
  obtain ⟨c, -, hc⟩ := List.mem_flatMap.1 h
  exact strayByte_not_mem_encoded (encoded_encodeChar c) hc

/-- **An encoded text is decoded to itself.** -/
theorem textOf?_encode (s : String) : textOf? (String.ofList (encodeText s.toList)) = some s := by
  rw [textOf?, String.toList_ofList, decodeText_encodeText]
  simp

end Hotswap.Document
