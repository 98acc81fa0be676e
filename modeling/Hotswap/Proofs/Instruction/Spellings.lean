import Hotswap.Proofs.Instruction.Wire
import Mathlib

/-!
# Spellings of opcodes and operands

An opcode goes by any of its names, in any letter case, with `_` for `.` and with dots at the end
(`Opcode.Spells`). An integer is a number or a string of digits, and branch targets are an array or
a string that holds one. What a document may hold for an operand is `Operand.Gives`.

Zero has two numerals, and the one with a sign stands for a floating-point number. It has the form
of an integer, so it may stand for one here, but it is refused wherever the decoder wants an integer
(`Operand.decode_of_holdsNegativeZero`). Everything else that gives an operand is decoded as it
(`Operand.decode_of_gives`).
-/

namespace Hotswap

open Document

/-! ## Names of opcodes -/

namespace Opcode

/-- A character of a name may be written for another one: letter case does not matter, and `_` may
be written for `.`. -/
def WritesChar (c d : Char) : Prop := c.toLower = d.toLower ∨ c = '_' ∧ d = '.'

instance (c d : Char) : Decidable (WritesChar c d) :=
  inferInstanceAs (Decidable (c.toLower = d.toLower ∨ c = '_' ∧ d = '.'))

/-- A text spells a name: character by character, whatever dots either has at the end. -/
def Spells (text name : String) : Prop :=
  ∃ core core' dots dots' : List Char, text.toList = core ++ dots ∧ name.toList = core' ++ dots' ∧
    List.Forall₂ WritesChar core core' ∧ (∀ c ∈ dots, WritesChar c '.') ∧ ∀ c ∈ dots', c = '.'

/-- A character that is written in lower case is the character itself, if it is no letter. -/
theorem eq_of_toLower_eq {c d : Char} (h : c.toLower = d) (hd : d.toNat < 97) : c = d := by
  unfold Char.toLower at h
  split at h
  · rename_i hupper
    have hlow : 65 ≤ c.val.toNat := hupper.1
    have hhigh : c.val.toNat ≤ 90 := hupper.2
    have hval : (c.val + 32).toNat < 97 := by
      subst h
      exact hd
    have hstep : (32 : UInt32).toNat = 32 := rfl
    rw [UInt32.toNat_add] at hval
    omega
  · exact h

/-- What a character becomes in a normal form. -/
def normalChar (c : Char) : Char := if c = '_' then '.' else c.toLower

/-- A character and one that may be written for it have one normal form. -/
theorem normalChar_eq {c d : Char} (h : WritesChar c d) : normalChar c = normalChar d := by
  unfold normalChar
  obtain h | ⟨rfl, rfl⟩ := h
  · by_cases hc : c = '_'
    · have hd : d = '_' := eq_of_toLower_eq (h.symm.trans (congrArg Char.toLower hc)) (by decide)
      rw [hc, hd]
    · have hd : d ≠ '_' := fun hd =>
        hc (eq_of_toLower_eq (h.trans (congrArg Char.toLower hd)) (by decide))
      rw [if_neg hc, if_neg hd, h]
  · rfl

/-- Dots at the end do not matter. -/
theorem normalChars_append {core dots : List Char} (h : ∀ c ∈ dots, normalChar c = '.') :
    normalChars (core ++ dots) = normalChars core := by
  show (((core ++ dots).map normalChar).reverse.dropWhile (· == '.')).reverse =
    ((core.map normalChar).reverse.dropWhile (· == '.')).reverse
  rw [List.map_append, List.reverse_append, List.dropWhile_append_of_pos]
  intro c hc
  obtain ⟨d, hd, rfl⟩ := List.mem_map.1 (List.mem_reverse.1 hc)
  exact beq_iff_eq.2 (h d hd)

/-- A text has the normal form of a name that it spells. -/
theorem normalName_of_spells {text name : String} (h : Spells text name) :
    normalName text = normalName name := by
  obtain ⟨core, core', dots, dots', htext, hname, hcore, hdots, hdots'⟩ := h
  have hsame : core.map normalChar = core'.map normalChar := by
    rw [← List.forall₂_eq_eq_eq, List.forall₂_map_left_iff, List.forall₂_map_right_iff]
    exact hcore.imp fun c d hcd => normalChar_eq hcd
  unfold normalName
  rw [htext, hname, normalChars_append fun c hc => (normalChar_eq (hdots c hc)).trans rfl,
    normalChars_append fun c hc => by rw [hdots' c hc]; rfl]
  show String.ofList ((core.map normalChar).reverse.dropWhile (· == '.')).reverse =
    String.ofList ((core'.map normalChar).reverse.dropWhile (· == '.')).reverse
  rw [hsame]

/-- **An opcode is found under every spelling of its names.** -/
theorem ofName?_of_spells {op : Opcode} {name text : String}
    (hname : name ∈ op.mnemonic :: op.row.aliases) (h : Spells text name) :
    ofName? text = some op :=
  ofName?_of_mem_spellings (List.mem_map.2 ⟨name, hname, (normalName_of_spells h).symm⟩)

/-- The code of an opcode has 16 bits. -/
theorem code_lt (op : Opcode) : op.code < UInt16.size := by
  obtain ⟨hlength, -⟩ := List.getElem?_eq_some_iff.1 (all_getElem?_code op)
  exact Nat.lt_trans hlength (by decide +kernel)

end Opcode

/-! ## Integers as text -/

namespace Decimal

/-- The decimal text of an integer is read as the integer. -/
theorem readInt?_toString (n : Int) : readInt? (toString n).toList = some n := by
  have hread : ∀ m : Nat, (Nat.toDigits 10 m).isEmpty = false ∧
      (Nat.toDigits 10 m).all Char.isDigit = true := by
    intro m
    refine ⟨by simp [List.isEmpty_eq_false_iff], List.all_eq_true.2 fun c hc => ?_⟩
    exact isDigit_of_mem_toDigits hc
  cases n with
  | ofNat m =>
    show readInt? (Nat.repr m).toList = _
    rw [Nat.toList_repr, readInt?, takeSign_toDigits]
    simp [hread m, natOfDigits_toDigits]
  | negSucc m =>
    show readInt? ("-" ++ Nat.repr (m + 1)).toList = _
    have hsign : takeSign ("-" ++ Nat.repr (m + 1)).toList =
        (true, Nat.toDigits 10 (m + 1)) := by
      rw [String.toList_append, Nat.toList_repr]
      rfl
    rw [readInt?, hsign]
    simp [hread (m + 1), natOfDigits_toDigits, Int.negSucc_eq]

/-- The numeral of an integer of 64 bits is read back. -/
theorem readInt64?_toString (n : Int64) : readInt64? (toString n.toInt) = some n := by
  unfold readInt64?
  rw [readInt?_toString]
  dsimp only
  rw [if_pos ⟨n.minValue_le_toInt, n.toInt_le⟩, Int64.ofInt_toInt]

end Decimal

/-! ## Documents of values -/

namespace Document

/-- A string, however its characters are escaped. -/
def WritesString (s : String) (d : Document) : Prop := ∃ raw, d = .string raw ∧ textOf? raw = some s

/-- The numeral of zero with a sign. It has the form of an integer, but it stands for a
floating-point number. -/
def negativeZero : Document := .number "-0"

/-- A numeral without fraction and exponent. Every integer has one, and zero has another one with a
sign. -/
def WritesNumber (n : Int) (d : Document) : Prop := d = ofInt n ∨ n = 0 ∧ d = negativeZero

/-- An integer: a number, or the string of its decimal text. -/
def WritesInteger (n : Int) (d : Document) : Prop := d.WritesNumber n ∨ d.WritesString (toString n)

/-- A document holds an array: it is one, or a string with the text of one. -/
def Unfolds (items : List Document) (d : Document) : Prop :=
  d = .array items ∨
    ∃ text, d.WritesString text ∧ read (Text.source text.toList) = (.array items, true)

/-- Branch targets: an array of integers, or a string that holds the text of one. -/
def WritesTargets (offsets : List UInt32) (d : Document) : Prop :=
  ∃ items, List.Forall₂ (fun (o : UInt32) item => WritesInteger o.toNat item) offsets items ∧
    d.Unfolds items

/-- A written string is a string. -/
theorem writesString_ofString (s : String) : (ofString s).WritesString s :=
  ⟨_, rfl, textOf?_encode s⟩

/-- A string can be decoded wherever it stands. -/
theorem WritesString.isReadable {s : String} {d : Document} (h : d.WritesString s)
    (levels : Nat) : d.isReadable levels = true := by
  obtain ⟨raw, rfl, hraw⟩ := h
  rw [Document.isReadable, hraw]
  rfl

/-- A document holds one array at most. -/
theorem Unfolds.unique {items items' : List Document} {d : Document} (h : d.Unfolds items)
    (h' : d.Unfolds items') : items = items' := by
  obtain rfl | ⟨text, ⟨raw, rfl, hraw⟩, hread⟩ := h
  · obtain heq | ⟨text, ⟨raw, heq, -⟩, -⟩ := h'
    · exact Document.array.inj heq
    · cases heq
  · obtain heq | ⟨text', ⟨raw', heq, hraw'⟩, hread'⟩ := h'
    · cases heq
    · cases heq
      obtain rfl : text = text' := Option.some.inj (hraw.symm.trans hraw')
      exact Document.array.inj (congrArg Prod.fst (hread.symm.trans hread'))

/-! ### Zero with a sign -/

/-- Zero with a sign can be decoded. -/
theorem isReadable_negativeZero (levels : Nat) : negativeZero.isReadable levels = true := rfl

/-- Zero with a sign is no offset. -/
theorem offsetOf?_negativeZero : Operand.offsetOf? negativeZero = none := rfl

/-- Items with a zero that has a sign are no offsets. -/
theorem offsetsOf?_of_mem_negativeZero {items : List Document} (h : negativeZero ∈ items) :
    Operand.offsetsOf? items = none := by
  induction items with
  | nil => cases h
  | cons item rest ih =>
    rw [Operand.offsetsOf?]
    rcases List.mem_cons.1 h with rfl | hrest
    · rw [offsetOf?_negativeZero]
    · rw [ih hrest]
      cases Operand.offsetOf? item <;> rfl

/-! ### Integers -/

/-- The numerals of a natural number are the same for it as an integer. -/
theorem ofInt_natCast (n : Nat) : ofInt n = ofNat n := by
  rw [ofInt, if_neg (by omega), Int.natAbs_natCast, ofNat]

/-- A number other than the zero with a sign is the numeral that is written. -/
theorem WritesNumber.eq_ofInt {n : Int} {d : Document} (h : d.WritesNumber n)
    (hzero : d ≠ negativeZero) : d = ofInt n :=
  h.resolve_right fun hzero' => hzero hzero'.2

/-- The same for natural numbers. -/
theorem WritesNumber.eq_ofNat {n : Nat} {d : Document} (h : d.WritesNumber n)
    (hzero : d ≠ negativeZero) : d = ofNat n :=
  (h.eq_ofInt hzero).trans (ofInt_natCast n)

/-- The numerals of natural numbers have no sign. -/
theorem ofNat_ne_negativeZero (n : Nat) : ofNat n ≠ negativeZero := by
  intro h
  have hrepr : (Nat.repr n).toList = ['-', '0'] := congrArg String.toList (Document.number.inj h)
  rw [Nat.toList_repr] at hrepr
  have hsign : '-' ∈ Nat.toDigits 10 n := by
    rw [hrepr]
    exact .head _
  exact absurd (Decimal.isDigit_of_mem_toDigits hsign) (by decide)

/-- A natural number is written as itself. -/
theorem writesNumber_ofNat (n : Nat) : (ofNat n).WritesNumber n := .inl (ofInt_natCast n).symm

/-- A number is not `null`. -/
theorem WritesNumber.ne_null {n : Int} {d : Document} (h : d.WritesNumber n) : d ≠ .null := by
  obtain rfl | ⟨-, rfl⟩ := h
  · exact nofun
  · exact nofun

/-- An integer is read as itself, unless it is the zero with a sign. -/
theorem WritesInteger.integerOf? {n : Int64} {d : Document} (h : d.WritesInteger n.toInt)
    (hzero : d ≠ negativeZero) : Operand.integerOf? d = some n := by
  obtain hnumber | ⟨raw, rfl, hraw⟩ := h
  · rw [hnumber.eq_ofInt hzero]
    exact Operand.integerOf?_ofInt n
  · rw [Operand.integerOf?, hraw]
    exact Decimal.readInt64?_toString n

/-- A natural number in range is read as itself, unless it is the zero with a sign. -/
theorem WritesInteger.naturalOf? {bound n : Nat} {d : Document} (hbound : bound ≤ int64Bound)
    (hn : n < bound) (h : d.WritesInteger n) (hzero : d ≠ negativeZero) :
    Operand.naturalOf? bound d = some n := by
  have hrange : n < int64Bound := Nat.lt_of_lt_of_le hn hbound
  have hvalue : (Int64.ofInt (n : Int)).toInt = n := by
    refine Int64.toInt_ofInt_of_le ?_ ?_ <;> unfold int64Bound at hrange <;> omega
  rw [← hvalue] at h
  unfold Operand.naturalOf?
  rw [h.integerOf? hzero, Option.bind_some, hvalue, if_pos (by omega)]
  rfl

/-- An offset is read as itself, unless it is the zero with a sign. -/
theorem WritesInteger.offsetOf? {o : UInt32} {d : Document} (h : d.WritesInteger o.toNat)
    (hzero : d ≠ negativeZero) : Operand.offsetOf? d = some o := by
  rw [Operand.offsetOf?, h.naturalOf? (by decide) o.toNat_lt hzero, Option.map_some,
    UInt32.ofNat_toNat]

/-- An integer of 64 bits can be decoded wherever it stands. -/
theorem WritesInteger.isReadable {n : Int64} {d : Document} (h : d.WritesInteger n.toInt)
    (levels : Nat) : d.isReadable levels = true := by
  obtain (rfl | ⟨-, rfl⟩) | h := h
  · exact Operand.isReadable_ofInt levels n
  · exact isReadable_negativeZero levels
  · exact h.isReadable levels

/-- So can a natural number that 64 bits hold. -/
theorem WritesInteger.isReadable_of_lt {n : Nat} {d : Document} (hn : n < int64Bound)
    (h : d.WritesInteger n) (levels : Nat) : d.isReadable levels = true := by
  have hvalue : (Int64.ofInt (n : Int)).toInt = n := by
    refine Int64.toInt_ofInt_of_le ?_ ?_ <;> unfold int64Bound at hn <;> omega
  rw [← hvalue] at h
  exact h.isReadable levels

section targets

variable {offsets : List UInt32} {items : List Document}

/-- Offsets are read as themselves, unless one of them is the zero with a sign. -/
theorem offsetsOf?_of_writes
    (h : List.Forall₂ (fun (o : UInt32) item => WritesInteger o.toNat item) offsets items)
    (hzero : negativeZero ∉ items) : Operand.offsetsOf? items = some offsets := by
  induction h with
  | nil => rfl
  | cons hfirst _ ih =>
    obtain ⟨hne, hrest⟩ : negativeZero ≠ _ ∧ negativeZero ∉ _ := not_or.1 (hzero ∘ List.mem_cons.2)
    rw [Operand.offsetsOf?, hfirst.offsetOf? hne.symm, ih hrest]

/-- Offsets can be decoded wherever they stand. -/
theorem areReadable_of_writes (levels : Nat)
    (h : List.Forall₂ (fun (o : UInt32) item => WritesInteger o.toNat item) offsets items) :
    areReadable levels items = true := by
  induction h with
  | nil => rfl
  | @cons o item _ _ hfirst _ ih =>
    have ho : o.toNat < int64Bound := Nat.lt_of_lt_of_le o.toNat_lt (by decide)
    rw [areReadable, hfirst.isReadable_of_lt ho levels, ih]
    rfl

/-- An array of offsets can be decoded wherever arrays can. -/
theorem isReadable_array_of_writes {levels : Nat} (hlevels : 1 < levels)
    (h : List.Forall₂ (fun (o : UInt32) item => WritesInteger o.toNat item) offsets items) :
    (Document.array items).isReadable levels = true := by
  rw [Document.isReadable, decide_eq_true hlevels, areReadable_of_writes (levels - 1) h]
  rfl

/-- So can targets in either form. -/
theorem WritesTargets.isReadable {d : Document} (h : d.WritesTargets offsets) {levels : Nat}
    (hlevels : 1 < levels) : d.isReadable levels = true := by
  obtain ⟨items, hitems, rfl | ⟨text, htext, -⟩⟩ := h
  · exact isReadable_array_of_writes hlevels hitems
  · exact htext.isReadable levels

/-- Targets in either form are unfolded to the array that they hold. -/
theorem Unfolds.unfoldTargets {d : Document} (h : d.Unfolds items)
    (hitems : List.Forall₂ (fun (o : UInt32) item => WritesInteger o.toNat item) offsets items) :
    Operand.unfoldTargets d = .ok (.array items) := by
  obtain rfl | ⟨text, ⟨raw, rfl, hraw⟩, hread⟩ := h
  · rfl
  · rw [Operand.unfoldTargets, hraw]
    dsimp only
    rw [decodeSource_of_read _ hread, Operand.readable,
      if_pos (isReadable_array_of_writes (by decide) hitems)]
    rfl

end targets

end Document

/-! ## Operands -/

/-- What a document may hold for an operand. Nothing is asked of it for an instruction without
operand, and floating-point numbers are left out. -/
def Operand.Gives : Operand → Document → Prop
  | .none, _ => True
  | .int n, d => d.WritesInteger n.toInt
  | .float _, _ => False
  | .string s, d | .method s, d | .type s, d | .field s, d | .token s, d | .callSite s, d =>
    d.WritesString s
  | .target o, d => d.WritesInteger o.toNat
  | .targets offsets, d => d.WritesTargets offsets
  | .slot index, d => d.WritesInteger index.toNat

/-- A document holds the zero with a sign where the operand has an integer. -/
def Operand.HoldsNegativeZero : Operand → Document → Prop
  | .int _, d | .target _, d | .slot _, d => d = negativeZero
  | .targets _, d => ∃ items, d.Unfolds items ∧ negativeZero ∈ items
  | _, _ => False

/-- **What gives an operand is decoded as it**, unless it holds the zero with a sign. -/
theorem Operand.decode_of_gives {opcode : Opcode} {operand : Operand} {d : Document}
    (hkind : opcode.operandKind = operand.kind) (h : operand.Gives d)
    (hzero : ¬operand.HoldsNegativeZero d) : decode opcode d = .ok operand := by
  have hstring : ∀ {s : String}, d.WritesString s → stringOf? d = some s := by
    rintro s ⟨raw, rfl, hraw⟩
    exact hraw
  unfold decode
  rw [hkind]
  cases operand with
  | none => rfl
  | int n => simp only [kind, WritesInteger.integerOf? h hzero, Option.map_some]
  | float x => exact h.elim
  | string s | method s | type s | field s | token s | callSite s =>
    simp only [kind, hstring h, Option.map_some]
  | target o => simp only [kind, WritesInteger.offsetOf? h hzero, Option.map_some]
  | targets offsets =>
    obtain ⟨items, hitems, hunfolds⟩ := h
    have hoffsets : offsetsOf? items = some offsets :=
      offsetsOf?_of_writes hitems fun hmem => hzero ⟨items, hunfolds, hmem⟩
    simp only [kind, hunfolds.unfoldTargets hitems, bind, Except.bind, hoffsets, Option.map_some]
  | slot index =>
    have hslot : naturalOf? UInt16.size d = some index.toNat :=
      WritesInteger.naturalOf? (by decide) index.toNat_lt h hzero
    simp only [kind, hslot, Option.map_some, UInt16.ofNat_toNat]

/-- **The zero with a sign is refused** where an operand has an integer. -/
theorem Operand.decode_of_holdsNegativeZero {opcode : Opcode} {operand : Operand} {d : Document}
    (hkind : opcode.operandKind = operand.kind) (h : operand.Gives d)
    (hzero : operand.HoldsNegativeZero d) :
    ∃ reason, decode opcode d = .error (.invalidOperand opcode reason) := by
  unfold decode
  rw [hkind]
  cases operand with
  | none | float _ | string _ | method _ | type _ | field _ | token _ | callSite _ =>
    exact hzero.elim
  | int n =>
    rw [show d = negativeZero from hzero]
    exact ⟨_, rfl⟩
  | target o =>
    rw [show d = negativeZero from hzero]
    exact ⟨_, rfl⟩
  | slot index =>
    rw [show d = negativeZero from hzero]
    exact ⟨_, rfl⟩
  | targets offsets =>
    obtain ⟨items, hitems, hunfolds⟩ := h
    obtain ⟨items', hunfolds', hmem⟩ := hzero
    obtain rfl := hunfolds.unique hunfolds'
    simp only [kind, hunfolds.unfoldTargets hitems, bind, Except.bind,
      offsetsOf?_of_mem_negativeZero hmem, Option.map_none]
    exact ⟨_, rfl⟩

/-- Whatever gives an operand can be decoded. -/
theorem Operand.isReadable_of_gives {operand : Operand} {d : Document} (hnone : operand ≠ .none)
    (h : operand.Gives d) {levels : Nat} (hlevels : 1 < levels) : d.isReadable levels = true := by
  cases operand with
  | none => exact absurd rfl hnone
  | int n => exact WritesInteger.isReadable h levels
  | float x => exact h.elim
  | string s | method s | type s | field s | token s | callSite s =>
    exact WritesString.isReadable h levels
  | target o =>
    exact WritesInteger.isReadable_of_lt (Nat.lt_of_lt_of_le o.toNat_lt (by decide)) h levels
  | targets offsets => exact WritesTargets.isReadable h hlevels
  | slot index =>
    exact WritesInteger.isReadable_of_lt (Nat.lt_of_lt_of_le index.toNat_lt (by decide)) h levels

end Hotswap
