import Hotswap.Instruction.Wire
import Hotswap.Proofs.Document.Decoder
import Hotswap.Proofs.Document.Float
import Hotswap.Proofs.Opcode.Lookup
import Hotswap.Proofs.Result

/-!
# Instructions that are written and read

An operand is decoded by the opcode alone, so an operand that its opcode takes is read back
(`Operand.decode_toDocument`). Floating-point numbers are left out: their numerals are read with a
tolerance. An instruction is read back with the operand that its operand is read as
(`Instruction.decode_toDocument`).
-/

namespace Hotswap

open Document

/-! ## Operands -/

namespace Operand

/-- A natural number below the bound is read back as an integer of 64 bits. -/
theorem integerOf?_ofNat {n : Nat} (h : n < int64Bound) :
    integerOf? (ofNat n) = some (Int64.ofInt n) := by
  have hfits : n < UInt64.size := Nat.lt_trans h (by decide)
  rw [ofNat, integerOf?, numberOf?_ofNat hfits, if_pos h]

/-- An integer of 64 bits is read back. -/
theorem integerOf?_ofInt (n : Int64) : integerOf? (ofInt n.toInt) = some n := by
  have hlow := n.le_toInt
  have hhigh := n.toInt_lt
  unfold ofInt
  split
  · rename_i hneg
    have hrange : n.toInt.natAbs ≤ int64Bound := by
      unfold int64Bound
      omega
    rw [integerOf?, numberOf?_neg_repr (by omega) hrange]
    show some (Int64.ofInt (-(n.toInt.natAbs : Int))) = _
    rw [show -(n.toInt.natAbs : Int) = n.toInt by omega, Int64.ofInt_toInt]
  · rename_i hneg
    have hrange : n.toInt.natAbs < int64Bound := by
      unfold int64Bound
      omega
    have hread := integerOf?_ofNat hrange
    rw [ofNat] at hread
    rw [hread, show (n.toInt.natAbs : Int) = n.toInt by omega, Int64.ofInt_toInt]

/-- A natural number is read back below any bound that it keeps. -/
theorem naturalOf?_ofNat {bound n : Nat} (hbound : bound ≤ int64Bound) (h : n < bound) :
    naturalOf? bound (ofNat n) = some n := by
  have hrange : n < int64Bound := Nat.lt_of_lt_of_le h hbound
  have hvalue : (Int64.ofInt (n : Int)).toInt = n := by
    refine Int64.toInt_ofInt_of_le ?_ ?_
    · omega
    · unfold int64Bound at hrange
      omega
  unfold naturalOf?
  rw [integerOf?_ofNat hrange]
  show (if 0 ≤ (Int64.ofInt (n : Int)).toInt ∧ (Int64.ofInt (n : Int)).toInt < bound then
    some (Int64.ofInt (n : Int)).toInt.toNat else Option.none) = _
  rw [hvalue, if_pos (by omega)]
  rfl

/-- An offset is read back. -/
theorem offsetOf?_ofNat (o : UInt32) : offsetOf? (ofNat o.toNat) = some o := by
  rw [offsetOf?, naturalOf?_ofNat (by decide) o.toNat_lt]
  show some (UInt32.ofNat o.toNat) = _
  rw [UInt32.ofNat_toNat]

/-- A list of offsets is read back. -/
theorem offsetsOf?_map (os : List UInt32) :
    offsetsOf? (os.map fun o => ofNat o.toNat) = some os := by
  induction os with
  | nil => rfl
  | cons o rest ih => rw [List.map_cons, offsetsOf?, offsetOf?_ofNat, ih]

/-- A string is read back. -/
theorem stringOf?_ofString (s : String) : stringOf? (ofString s) = some s := textOf?_encode s

/-- **An operand that its opcode takes is read back**, unless it is a floating-point number. -/
theorem decode_toDocument {opcode : Opcode} {operand : Operand}
    (hkind : opcode.operandKind = operand.kind) (hfloat : ∀ x, operand ≠ .float x) :
    decode opcode operand.toDocument = .ok operand := by
  unfold decode
  rw [hkind]
  cases operand with
  | none => rfl
  | int n => simp only [kind, toDocument, integerOf?_ofInt, Option.map_some]
  | float x => exact absurd rfl (hfloat x)
  | string s => simp only [kind, toDocument, stringOf?_ofString, Option.map_some]
  | method s => simp only [kind, toDocument, stringOf?_ofString, Option.map_some]
  | type s => simp only [kind, toDocument, stringOf?_ofString, Option.map_some]
  | field s => simp only [kind, toDocument, stringOf?_ofString, Option.map_some]
  | token s => simp only [kind, toDocument, stringOf?_ofString, Option.map_some]
  | callSite s => simp only [kind, toDocument, stringOf?_ofString, Option.map_some]
  | target o => simp only [kind, toDocument, offsetOf?_ofNat, Option.map_some]
  | targets os =>
    simp only [kind, toDocument, unfoldTargets, bind, Except.bind, offsetsOf?_map, Option.map_some]
  | slot n =>
    have hslot : naturalOf? UInt16.size (ofNat n.toNat) = some n.toNat :=
      naturalOf?_ofNat (by decide) n.toNat_lt
    simp only [kind, toDocument, hslot, Option.map_some, UInt16.ofNat_toNat]

/-- What is made out of what an optional reader gives is of the kind that is made. -/
theorem kind_of_made {α : Type} {make : α → Operand} {kind : OperandKind} {found : Option α}
    {opcode : Opcode} {reason : String} {operand : Operand} (hkind : ∀ a, (make a).kind = kind)
    (h : (match found.map make with
      | some operand => Except.ok operand
      | Option.none => Except.error (FormatError.invalidOperand opcode reason)) = .ok operand) :
    operand.kind = kind := by
  cases found with
  | none => cases h
  | some a =>
    cases h
    exact hkind a

/-- The operand of a document is of the kind that the opcode takes. -/
theorem kind_of_decode {opcode : Opcode} {d : Document} {operand : Operand}
    (h : decode opcode d = .ok operand) : operand.kind = opcode.operandKind := by
  -- Every branch refuses, or makes operands of one kind.
  unfold decode at h
  cases hkind : opcode.operandKind <;> rw [hkind] at h
  case none =>
    cases h
    rfl
  case targets =>
    obtain ⟨unfolded, -, hitems⟩ := bind_eq_ok.1 h
    split at hitems
    · exact kind_of_made (fun _ => rfl) hitems
    · cases hitems
  all_goals exact kind_of_made (fun _ => rfl) h

/-! ### Documents of operands -/

/-- A written natural number can be decoded. -/
theorem isReadable_ofNat {n : Nat} (levels : Nat) (h : n < UInt64.size) :
    (ofNat n).isReadable levels = true := by
  rw [ofNat, isReadable, numberOf?_repr h]
  rfl

/-- A written integer can be decoded. -/
theorem isReadable_ofInt (levels : Nat) (n : Int64) :
    (ofInt n.toInt).isReadable levels = true := by
  have hread := integerOf?_ofInt n
  unfold ofInt at hread ⊢
  rw [integerOf?] at hread
  obtain ⟨number, hnumber, -⟩ := Option.bind_eq_some_iff.1 hread
  rw [isReadable, hnumber]
  rfl

/-- A written string can be decoded. -/
theorem isReadable_ofString (levels : Nat) (s : String) :
    (ofString s).isReadable levels = true := by
  rw [ofString, isReadable, textOf?_encode]
  rfl

/-- Written offsets can be decoded. -/
theorem areReadable_map_ofNat (levels : Nat) (os : List UInt32) :
    areReadable levels (os.map fun o => ofNat o.toNat) = true := by
  induction os with
  | nil => rfl
  | cons o rest ih =>
    have ho : o.toNat < UInt64.size := Nat.lt_trans o.toNat_lt (by decide)
    rw [List.map_cons, areReadable, isReadable_ofNat levels ho, ih]
    rfl

/-- Whatever stands in a written operand can be decoded. -/
theorem isReadable_toDocument (operand : Operand) {levels : Nat} (hlevels : 1 < levels) :
    operand.toDocument.isReadable levels = true := by
  cases operand with
  | none => rfl
  | int n => exact isReadable_ofInt levels n
  | float x => exact isReadable_ofFloat levels x
  | string s => exact isReadable_ofString levels s
  | method s => exact isReadable_ofString levels s
  | type s => exact isReadable_ofString levels s
  | field s => exact isReadable_ofString levels s
  | token s => exact isReadable_ofString levels s
  | callSite s => exact isReadable_ofString levels s
  | target o => exact isReadable_ofNat levels (Nat.lt_trans o.toNat_lt (by decide))
  | targets os =>
    rw [toDocument, isReadable, areReadable_map_ofNat, decide_eq_true hlevels]
    rfl
  | slot n => exact isReadable_ofNat levels (Nat.lt_trans n.toNat_lt (by decide))

/-- What an operand is written as is one of the documents that are read back as they are. -/
theorem isWritten_toDocument (operand : Operand) : operand.toDocument.IsWritten := by
  cases operand with
  | none => exact trivial
  | int n => exact isWritten_ofInt _
  | float x => exact isWritten_ofFloat x
  | string s => exact isWritten_ofString s
  | method s => exact isWritten_ofString s
  | type s => exact isWritten_ofString s
  | field s => exact isWritten_ofString s
  | token s => exact isWritten_ofString s
  | callSite s => exact isWritten_ofString s
  | target o => exact isWritten_ofNat _
  | targets os =>
    refine areWritten_iff.2 fun d hd => ?_
    obtain ⟨o, -, rfl⟩ := List.mem_map.1 hd
    exact isWritten_ofNat _
  | slot n => exact isWritten_ofNat _

end Operand

/-! ## Instructions -/

namespace Instruction

/-- A string spells a name. -/
theorem decodeSpelling_ofString (bound : Nat) (s : String) :
    decodeSpelling bound (ofString s) = .ok (.name s) := by
  have hstring := decodeString_ofString s
  rw [ofString] at hstring ⊢
  rw [decodeSpelling, hstring]
  rfl

/-- The operand type as it is read from a written instruction. -/
def writtenType? : OperandKind → Option Spelling
  | .none => none
  | kind => some (.name kind.operandType)

/-- The operand type that is written is one that is accepted. -/
theorem checkOperandType_writtenType? (kind : OperandKind) :
    checkOperandType (writtenType? kind) = .ok () := by
  cases kind <;> rfl

/-- The next offset is written last, if there is one. -/
theorem decodeMembers_next {levels : Nat} (next : Option UInt32) {given : List Nat} {draft : Draft}
    (hgiven : given.contains 3 = false) (hdraft : draft.next = none) :
    decodeMembers fields (decodeField levels) given draft
        (List.map (fun m => (String.ofList (encodeText m.1.toList), m.2))
          (match next with
            | none => []
            | some offset => [("nextOffset", ofNat offset.toNat)])) =
      .ok { draft with next := next } := by
  cases next with
  | none =>
    show Except.ok draft = _
    rw [← hdraft]
  | some o =>
    have hnext : decodeField levels draft 3 (ofNat o.toNat) =
        .ok { draft with next := some o } := by
      have hoffset := decodeUInt32_ofNat o
      rw [ofNat] at hoffset ⊢
      rw [decodeField, decodeOption, hoffset]
      · rfl
      · intro heq
        cases heq
      all_goals decide
    rw [List.map_cons, decodeMembers_cons (i := 3) rfl hgiven, hnext]
    rfl

/-- The record of a written instruction is decoded field by field, the operand as it stands. -/
theorem decodeRecord_toDocument (i : Instruction) {levels : Nat} (hlevels : 1 < levels) :
    decodeRecord fields (decodeField levels) {} i.toDocument =
      .ok ⟨some (.name i.opcode.mnemonic), writtenType? i.operand.kind, i.operand.toDocument,
        i.next⟩ := by
  have hcode : ∀ draft : Draft, decodeField levels draft 0 (ofString i.opcode.mnemonic) =
      .ok { draft with code := some (.name i.opcode.mnemonic) } := by
    intro draft
    rw [decodeField, decodeSpelling_ofString]
    rfl
  have htype : ∀ (draft : Draft) (s : String), decodeField levels draft 1 (ofString s) =
      .ok { draft with operandType := some (.name s) } := by
    intro draft s
    have hspelling := decodeSpelling_ofString UInt8.size s
    rw [ofString] at hspelling ⊢
    rw [decodeField, decodeOption, hspelling]
    · rfl
    · intro heq
      cases heq
  have hoperand : ∀ draft : Draft, decodeField levels draft 2 i.operand.toDocument =
      .ok { draft with operand := i.operand.toDocument } := by
    intro draft
    rw [decodeField, Operand.readable, if_pos (i.operand.isReadable_toDocument hlevels)]
    rfl
  unfold toDocument ofMembers decodeRecord
  simp only [List.map_append, List.map_cons, List.append_assoc, List.cons_append,
    List.nil_append]
  rw [decodeMembers_cons (i := 0) rfl rfl, hcode, ok_bind]
  cases hkind : i.operand.kind with
  | none =>
    rw [List.map_nil, List.nil_append, decodeMembers_cons (i := 2) rfl rfl, hoperand, ok_bind]
    exact decodeMembers_next i.next rfl rfl
  | _ =>
    simp only [List.map_cons, List.map_nil, List.cons_append, List.nil_append]
    rw [decodeMembers_cons (i := 1) rfl rfl, htype, ok_bind, decodeMembers_cons (i := 2) rfl rfl,
      hoperand, ok_bind]
    exact decodeMembers_next i.next rfl rfl

/-- **A written instruction is read back**, with the operand that its operand is read as. -/
theorem decode_toDocument (i : Instruction) {levels : Nat} (hlevels : 2 < levels) :
    decode levels i.toDocument =
      (fun operand => ⟨i.opcode, operand, i.next⟩) <$>
        Operand.decode i.opcode i.operand.toDocument := by
  have hopcode : opcodeOf (.name i.opcode.mnemonic) = .ok i.opcode := by
    rw [opcodeOf, Opcode.ofName?_mnemonic]
  unfold decode
  rw [decodeRecord_toDocument i (by omega)]
  simp only [bind, Except.bind, require, hopcode, checkOperandType_writtenType?]
  cases Operand.decode i.opcode i.operand.toDocument <;> rfl

/-- A written instruction is an object of such documents. -/
theorem isWritten_toDocument (i : Instruction) : i.toDocument.IsWritten := by
  unfold toDocument
  refine isWritten_ofMembers fun m hm => ?_
  simp only [List.mem_append, List.mem_singleton] at hm
  rcases hm with ((rfl | hm) | rfl) | hm
  · exact isWritten_ofString _
  · split at hm
    · cases hm
    · rw [List.mem_singleton.1 hm]
      exact isWritten_ofString _
  · exact Operand.isWritten_toDocument i.operand
  · split at hm
    · cases hm
    · rw [List.mem_singleton.1 hm]
      exact isWritten_ofNat _

/-- The operand of an instruction that is read is of the kind that its opcode takes. -/
theorem operand_kind_of_decode {levels : Nat} {d : Document} {i : Instruction}
    (h : decode levels d = .ok i) : i.operand.kind = i.opcode.operandKind := by
  unfold decode at h
  obtain ⟨draft, -, h⟩ := bind_eq_ok.1 h
  obtain ⟨spelling, -, h⟩ := bind_eq_ok.1 h
  obtain ⟨opcode, -, h⟩ := bind_eq_ok.1 h
  obtain ⟨-, -, h⟩ := bind_eq_ok.1 h
  obtain ⟨operand, hoperand, h⟩ := bind_eq_ok.1 h
  cases h
  exact Operand.kind_of_decode hoperand

end Instruction

end Hotswap
