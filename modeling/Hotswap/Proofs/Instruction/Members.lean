import Hotswap.Proofs.Instruction.Spellings
import Mathlib

/-!
# One instruction in many spellings

A document may give an instruction in many ways. Its members stand in any order and under either of
two names, the opcode goes by any of its names or by its position, the operand type is left out or
is any of those that there are, and integers are numbers or strings of digits. What a member may
hold is said part by part (`Instruction.Gives`), and an object gives an instruction if its members
do and none of them is missing or given twice (`Instruction.Encodes`).

Every such object is decoded as that instruction, with two provisos. No integer in it may be the
zero with a sign, which is refused. And its operand has to be one that can be decoded at all. That
matters only where the opcode takes no operand, since any other operand that is given can be: one
that nothing asks for is decoded too, so a numeral out of range, a lone surrogate or too many levels
in it spoil the whole instruction.

The members are decoded one after another. What each of them adds to the draft of the instruction is
`Drafted.member`, and what all of them add is `Drafted.run`. A member fails in one way only
(`FailsMalformed.decodeField`), so one that is malformed spoils the rest whatever else is wrong.
-/

namespace Hotswap

open Document

namespace Instruction

/-- The members of an instruction. -/
inductive Part where
  /-- The opcode. -/
  | code
  /-- The operand type. -/
  | operandType
  /-- The operand. -/
  | operand
  /-- The next offset. -/
  | next
  deriving DecidableEq

namespace Part

/-- The names of a member. -/
def names : Part → List String
  | code => ["code", "Code"]
  | operandType => ["operandType", "OperandType"]
  | operand => ["operand", "Operand"]
  | next => ["nextOffset", "NextOffset"]

/-- The place of a member in a record. -/
def index : Part → Nat
  | code => 0
  | operandType => 1
  | operand => 2
  | next => 3

/-- A text between quotes is a name of the member. -/
def Named (part : Part) (raw : String) : Prop := ∃ name ∈ part.names, textOf? raw = some name

/-- Different parts have different places among the fields. -/
theorem index_inj {part part' : Part} (h : part.index = part'.index) : part = part' := by
  cases part <;> cases part' <;> first | rfl | cases h

/-- A name of a part is the name of its field. -/
theorem fieldIndex?_of_mem_names {part : Part} {name : String} (h : name ∈ part.names) :
    fieldIndex? fields name = some part.index := by
  have hall : ∀ part : Part, ∀ name ∈ part.names, fieldIndex? fields name = some part.index := by
    intro part
    cases part <;> decide
  exact hall part name h

end Part

/-- What a document may hold for a member of an instruction. -/
def Gives (i : Instruction) : Part → Document → Prop
  | .code, d =>
    (∃ name ∈ i.opcode.mnemonic :: i.opcode.row.aliases, ∃ text, Opcode.Spells text name ∧
      d.WritesString text) ∨ d.WritesNumber i.opcode.code
  | .operandType, d =>
    d = .null ∨ (∃ name ∈ operandTypeNames, d.WritesString name) ∨ ∃ n : Nat, n < 10 ∧
      d.WritesNumber n
  | .operand, d => i.operand.Gives d
  | .next, d => i.next.elim (d = .null) fun o => d.WritesNumber o.toNat

/-- A document holds the zero with a sign where a member has an integer. -/
def HoldsNegativeZero (i : Instruction) : Part → Document → Prop
  | .operand, d => i.operand.HoldsNegativeZero d
  | _, d => d = negativeZero

/-- The members of an object, with the parts that they are, give an instruction. -/
structure Encodes (i : Instruction) (parts : List (Part × Document))
    (members : List (String × Document)) : Prop where
  /-- Every member is named as the part that it is, and holds the document of the part. -/
  named : List.Forall₂ (fun part member => part.1.Named member.1 ∧ member.2 = part.2) parts members
  /-- No part is given twice. -/
  once : (parts.map Prod.fst).Nodup
  /-- The opcode is given. -/
  code : Part.code ∈ parts.map Prod.fst
  /-- The operand is given, if there is one. -/
  operand : i.operand = .none ∨ Part.operand ∈ parts.map Prod.fst
  /-- The next offset is given, if there is one. -/
  next : i.next = none ∨ Part.next ∈ parts.map Prod.fst
  /-- Every part holds what it may hold for the instruction. -/
  gives : ∀ part ∈ parts, i.Gives part.1 part.2

/-! ## Decoding the members -/

/-- The name of an opcode or of an operand type is decoded as it is spelled. -/
theorem decodeSpelling_of_writesString {bound : Nat} {text : String} {d : Document}
    (h : d.WritesString text) : decodeSpelling bound d = .ok (.name text) := by
  obtain ⟨raw, rfl, hraw⟩ := h
  rw [decodeSpelling, decodeString, hraw]
  rfl

/-- A position in range is decoded as itself. -/
theorem decodeSpelling_ofNat {bound n : Nat} (hbound : bound ≤ UInt64.size) (h : n < bound) :
    decodeSpelling bound (ofNat n) = .ok (.code n) := by
  have hread := decodeBelow_ofNat hbound h
  rw [ofNat] at hread ⊢
  rw [decodeSpelling, hread]
  · rfl
  · intro raw heq
    cases heq

/-- What is not `null` is decoded as something. -/
theorem decodeOption_of_ne_null {α : Type} {decode : Document → Decoded α} {d : Document}
    (h : d ≠ .null) : decodeOption decode d = some <$> decode d := by
  unfold decodeOption
  split
  · exact absurd rfl h
  · rfl

/-- A draft holds the parts of an instruction that have been met. Its operand need not be the one of
the instruction: `answer` is what is decoded from it. -/
structure Drafted (i : Instruction) (answer : Decoded Operand) (seen : List Part) (draft : Draft) :
    Prop where
  /-- The opcode, once it has been met, is spelled. -/
  code : Part.code ∈ seen →
    ∃ spelling, draft.code = some spelling ∧ opcodeOf spelling = .ok i.opcode
  /-- The operand type is one that there is, if it has been met. -/
  operandType : checkOperandType draft.operandType = .ok ()
  /-- The operand, once it has been met, is decoded. -/
  operand : i.operand = .none ∨ Part.operand ∈ seen →
    Operand.decode i.opcode draft.operand = answer
  /-- The next offset, once it has been met, is there. -/
  next : i.next = none ∨ Part.next ∈ seen → draft.next = i.next

variable {i : Instruction} {answer : Decoded Operand} {levels : Nat} {seen : List Part}
  {draft : Draft} {d : Document}

/-- Before any member is met, the draft is empty. -/
theorem Drafted.empty (hkind : i.opcode.operandKind = i.operand.kind)
    (hanswer : i.operand = .none → answer = .ok .none) : Drafted i answer [] {} where
  code := nofun
  operandType := rfl
  operand h := by
    have hnone : i.operand = .none := h.resolve_right nofun
    rw [hanswer hnone]
    unfold Operand.decode
    rw [hkind, hnone]
    rfl
  next h := (h.resolve_right nofun).symm

/-- The opcode is decoded by its name or its position. -/
theorem Drafted.setCode (h : Drafted i answer seen draft) (hd : i.Gives .code d)
    (hzero : d ≠ negativeZero) :
    ∃ draft', decodeField levels draft 0 d = .ok draft' ∧
      Drafted i answer (.code :: seen) draft' := by
  obtain ⟨spelling, hspelling, hopcode⟩ : ∃ spelling,
      decodeSpelling UInt16.size d = .ok spelling ∧ opcodeOf spelling = .ok i.opcode := by
    obtain ⟨name, hname, text, hspells, htext⟩ | hnumber := hd
    · refine ⟨.name text, decodeSpelling_of_writesString htext, ?_⟩
      rw [opcodeOf, Opcode.ofName?_of_spells hname hspells]
    · rw [hnumber.eq_ofNat hzero]
      refine ⟨.code i.opcode.code, decodeSpelling_ofNat (by decide) i.opcode.code_lt, ?_⟩
      rw [opcodeOf, Opcode.ofCode?_code]
  refine ⟨{ draft with code := some spelling }, ?_, ⟨fun _ => ⟨spelling, rfl, hopcode⟩,
    h.operandType, fun hseen => h.operand ?_, fun hseen => h.next ?_⟩⟩
  · rw [decodeField, hspelling]
    rfl
  · simpa using hseen
  · simpa using hseen

/-- The operand type is decoded, and is one that there is. -/
theorem Drafted.setOperandType (h : Drafted i answer seen draft) (hd : i.Gives .operandType d)
    (hzero : d ≠ negativeZero) :
    ∃ draft', decodeField levels draft 1 d = .ok draft' ∧
      Drafted i answer (.operandType :: seen) draft' := by
  obtain ⟨operandType, htype, hcheck⟩ : ∃ operandType,
      decodeOption (decodeSpelling UInt8.size) d = .ok operandType ∧
        checkOperandType operandType = .ok () := by
    obtain rfl | ⟨name, hname, htext⟩ | ⟨n, hn, hnumber⟩ := hd
    · exact ⟨none, rfl, rfl⟩
    · refine ⟨some (.name name), ?_, ?_⟩
      · rw [decodeOption_of_ne_null, decodeSpelling_of_writesString htext]
        · rfl
        · rintro rfl
          obtain ⟨raw, hraw, -⟩ := htext
          cases hraw
      · rw [checkOperandType, if_pos (List.contains_iff_mem.2 hname)]
    · refine ⟨some (.code n), ?_, ?_⟩
      · have hbelow : n < UInt8.size := Nat.lt_trans hn (by decide)
        rw [decodeOption_of_ne_null hnumber.ne_null, hnumber.eq_ofNat hzero,
          decodeSpelling_ofNat (by decide) hbelow]
        rfl
      · exact if_pos hn
  refine ⟨{ draft with operandType }, ?_, ⟨fun hseen => h.code (by simpa using hseen), hcheck,
    fun hseen => h.operand (by simpa using hseen), fun hseen => h.next (by simpa using hseen)⟩⟩
  rw [decodeField, htype]
  rfl

/-- The operand is kept as it stands, if it can be decoded. -/
theorem Drafted.setOperand (h : Drafted i answer seen draft)
    (hanswer : Operand.decode i.opcode d = answer) (hreadable : d.isReadable levels = true) :
    ∃ draft', decodeField levels draft 2 d = .ok draft' ∧
      Drafted i answer (.operand :: seen) draft' := by
  refine ⟨{ draft with operand := d }, ?_, ⟨fun hseen => h.code (by simpa using hseen),
    h.operandType, fun _ => hanswer, fun hseen => h.next (by simpa using hseen)⟩⟩
  rw [decodeField, Operand.readable, if_pos hreadable]
  rfl

/-- The next offset is decoded, where `null` stands for none. -/
theorem Drafted.setNext (h : Drafted i answer seen draft) (hd : i.Gives .next d)
    (hzero : d ≠ negativeZero) :
    ∃ draft', decodeField levels draft 3 d = .ok draft' ∧
      Drafted i answer (.next :: seen) draft' := by
  have hnext : decodeOption decodeUInt32 d = .ok i.next := by
    change i.next.elim (d = .null) (fun o => d.WritesNumber o.toNat) at hd
    cases hoffset : i.next with
    | none =>
      rw [hoffset] at hd
      rw [show d = .null from hd]
      rfl
    | some o =>
      rw [hoffset] at hd
      have hnumber : d.WritesNumber o.toNat := hd
      rw [decodeOption_of_ne_null hnumber.ne_null, hnumber.eq_ofNat hzero, decodeUInt32_ofNat]
      rfl
  refine ⟨{ draft with next := i.next }, ?_, ⟨fun hseen => h.code (by simpa using hseen),
    h.operandType, fun hseen => h.operand (by simpa using hseen), fun _ => rfl⟩⟩
  rw [decodeField, hnext]
  · rfl
  all_goals decide

/-- **One member** is decoded, and then the draft holds its part too. An operand has to be one that
can be decoded, and no other part may be the zero with a sign. -/
theorem Drafted.member (h : Drafted i answer seen draft) {part : Part} (hd : i.Gives part d)
    (hzero : part ≠ .operand → d ≠ negativeZero)
    (hoperand : part = .operand →
      d.isReadable levels = true ∧ Operand.decode i.opcode d = answer) :
    ∃ draft', decodeField levels draft part.index d = .ok draft' ∧
      Drafted i answer (part :: seen) draft' := by
  cases part with
  | code => exact h.setCode hd (hzero nofun)
  | operandType => exact h.setOperandType hd (hzero nofun)
  | operand => exact h.setOperand (hoperand rfl).2 (hoperand rfl).1
  | next => exact h.setNext hd (hzero nofun)

/-! ### Members that cannot be decoded -/

/-- The only fault of a computation is a malformed document. -/
def FailsMalformed {α : Type} (x : Decoded α) : Prop := ∀ e, x = .error e → e = .malformedDocument

namespace FailsMalformed

variable {α β : Type}

/-- What has a result does not fail. -/
theorem ok (a : α) : FailsMalformed (.ok a) := nofun

/-- A malformed document is one. -/
theorem error : FailsMalformed (.error .malformedDocument : Decoded α) := fun _ h => by
  cases h
  rfl

/-- What is required and is not there is malformed. -/
theorem require (o : Option α) : FailsMalformed (Document.require o) := by
  cases o with
  | none => exact error
  | some a => exact ok a

/-- A result that is used further fails as before. -/
theorem map {x : Decoded α} (h : FailsMalformed x) (f : α → β) : FailsMalformed (f <$> x) := by
  cases x with
  | error e =>
    obtain rfl := h e rfl
    exact error
  | ok a => exact ok (f a)

/-- Numbers fail so. -/
theorem decodeBelow (bound : Nat) (d : Document) :
    FailsMalformed (Document.decodeBelow bound d) := by
  unfold Document.decodeBelow
  split
  · exact require _
  · exact error

/-- Names and positions fail so. -/
theorem decodeSpelling (bound : Nat) (d : Document) :
    FailsMalformed (Instruction.decodeSpelling bound d) := by
  unfold Instruction.decodeSpelling
  split
  · exact (require _).map _
  · exact (decodeBelow bound d).map _

/-- Options fail as what they are options of. -/
theorem decodeOption {decode : Document → Decoded α} (h : ∀ d, FailsMalformed (decode d))
    (d : Document) : FailsMalformed (Document.decodeOption decode d) := by
  unfold Document.decodeOption
  split
  · exact ok none
  · exact (h d).map _

/-- **The members of an instruction fail in one way only.** -/
theorem decodeField (levels : Nat) (draft : Draft) (n : Nat) (d : Document) :
    FailsMalformed (Instruction.decodeField levels draft n d) := by
  unfold Instruction.decodeField
  split
  · exact (decodeSpelling _ d).map fun code => { draft with code := some code }
  · exact (decodeOption (decodeSpelling _) d).map fun operandType => { draft with operandType }
  · unfold Operand.readable
    split
    · exact ok _
    · exact error
  · exact (decodeOption (fun d => (decodeBelow _ d).map UInt32.ofNat) d).map
      fun next => { draft with next }

end FailsMalformed

/-- An operand that cannot be decoded is refused. -/
theorem decodeField_operand_of_not_readable (h : ¬d.isReadable levels = true) (draft : Draft) :
    decodeField levels draft Part.operand.index d = .error .malformedDocument := by
  show (do return { draft with operand := ← Operand.readable levels d } : Decoded Draft) = _
  rw [Operand.readable, if_neg h]
  rfl

/-- The zero with a sign is refused for every other member. -/
theorem decodeField_negativeZero {part : Part} (hpart : part ≠ .operand) (draft : Draft) :
    decodeField levels draft part.index negativeZero = .error .malformedDocument := by
  cases part with
  | operand => exact absurd rfl hpart
  | code | operandType | next => rfl

/-! ### All members -/

section run

variable {parts : List (Part × Document)} {members : List (String × Document)}

/-- A part that has not been met is not among the places that have. -/
theorem contains_index_eq_false {part : Part} (h : part ∉ seen) :
    (seen.map Part.index).contains part.index = false := by
  rw [List.contains_eq_mem, decide_eq_false_iff_not]
  intro hmem
  obtain ⟨part', hpart', hindex⟩ := List.mem_map.1 hmem
  exact h (Part.index_inj hindex ▸ hpart')

/-- A member that is named as a part is decoded as that part, if it has not been met. -/
theorem decodeMembers_of_named {part : Part} {raw : String} (hnamed : part.Named raw)
    (hfresh : part ∉ seen) :
    decodeMembers fields (decodeField levels) (seen.map Part.index) draft ((raw, d) :: members) =
      decodeField levels draft part.index d >>= fun draft' =>
        decodeMembers fields (decodeField levels) ((part :: seen).map Part.index) draft'
          members := by
  obtain ⟨name, hname, hraw⟩ := hnamed
  exact decodeMembers_of_textOf? hraw (Part.fieldIndex?_of_mem_names hname)
    (contains_index_eq_false hfresh)

/-- Members that are still to come have not been met, and stay so when another one is. -/
theorem fresh_cons {part : Part} (honce : ((part :: parts.map Prod.fst)).Nodup)
    (hfresh : ∀ other ∈ part :: parts.map Prod.fst, other ∉ seen) :
    ∀ other ∈ parts.map Prod.fst, other ∉ part :: seen := by
  intro other hother hmem
  rcases List.mem_cons.1 hmem with rfl | hmem
  · exact (List.nodup_cons.1 honce).1 hother
  · exact hfresh other (.tail _ hother) hmem

/-- **All members** are decoded one after another, if no part is met twice and each of them can be
decoded, and then the draft holds all their parts. -/
theorem Drafted.run (h : Drafted i answer seen draft)
    (hnamed : List.Forall₂ (fun part member => part.1.Named member.1 ∧ member.2 = part.2)
      parts members)
    (honce : (parts.map Prod.fst).Nodup) (hfresh : ∀ part ∈ parts.map Prod.fst, part ∉ seen)
    (hgives : ∀ part ∈ parts, i.Gives part.1 part.2)
    (hzero : ∀ part ∈ parts, part.1 ≠ .operand → part.2 ≠ negativeZero)
    (hoperand : ∀ d, (Part.operand, d) ∈ parts →
      d.isReadable levels = true ∧ Operand.decode i.opcode d = answer) :
    ∃ draft', decodeMembers fields (decodeField levels) (seen.map Part.index) draft members =
        .ok draft' ∧
      Drafted i answer ((parts.map Prod.fst).reverse ++ seen) draft' := by
  induction hnamed generalizing seen draft with
  | nil => exact ⟨draft, rfl, h⟩
  | @cons part member parts members hfirst _ ih =>
    obtain ⟨part, d⟩ := part
    obtain ⟨raw, d'⟩ := member
    obtain ⟨hname, rfl⟩ := hfirst
    have hgiven : part = .operand →
        d'.isReadable levels = true ∧ Operand.decode i.opcode d' = answer := by
      rintro rfl
      exact hoperand d' (.head _)
    obtain ⟨draft', hdraft', h'⟩ : ∃ draft', decodeField levels draft part.index d' = .ok draft' ∧
        Drafted i answer (part :: seen) draft' :=
      h.member (hgives _ (.head _)) (hzero _ (.head _)) hgiven
    obtain ⟨last, hlast, hdrafted⟩ := ih h' (List.nodup_cons.1 honce).2 (fresh_cons honce hfresh)
      (fun part hpart => hgives part (.tail _ hpart))
      (fun part hpart => hzero part (.tail _ hpart)) fun d hd => hoperand d (.tail _ hd)
    refine ⟨last, ?_, by simpa using hdrafted⟩
    rw [decodeMembers_of_named hname (hfresh part (.head _)), hdraft', ok_bind]
    exact hlast

/-- **One member that is malformed spoils all of them**: those before it fail in the same way, if
they fail. -/
theorem decodeMembers_of_malformed {part : Part}
    (hnamed : List.Forall₂ (fun part member => part.1.Named member.1 ∧ member.2 = part.2)
      parts members)
    (honce : (parts.map Prod.fst).Nodup) (hfresh : ∀ part ∈ parts.map Prod.fst, part ∉ seen)
    (hgiven : (part, d) ∈ parts)
    (hmalformed : ∀ draft, decodeField levels draft part.index d = .error .malformedDocument) :
    decodeMembers fields (decodeField levels) (seen.map Part.index) draft members =
      .error .malformedDocument := by
  induction hnamed generalizing seen draft with
  | nil => cases hgiven
  | @cons first member parts members hfirst _ ih =>
    obtain ⟨first, d₁⟩ := first
    obtain ⟨raw, d'⟩ := member
    obtain ⟨hname, rfl⟩ := hfirst
    rw [decodeMembers_of_named hname (hfresh first (.head _))]
    rcases List.mem_cons.1 hgiven with heq | hlater
    · cases heq
      rw [hmalformed]
      rfl
    · cases hfield : decodeField levels draft first.index d' with
      | error e =>
        rw [FailsMalformed.decodeField _ _ _ _ e hfield]
        rfl
      | ok draft' =>
        rw [ok_bind]
        exact ih (List.nodup_cons.1 honce).2 (fresh_cons honce hfresh) hlater

/-- A draft that holds all parts of an instruction is finished as it, but for the operand. -/
theorem Drafted.finish (h : Drafted i answer seen draft) (hcode : .code ∈ seen)
    (hoperand : i.operand = .none ∨ .operand ∈ seen) (hnext : i.next = none ∨ .next ∈ seen) :
    (do
      let opcode ← opcodeOf (← require draft.code)
      checkOperandType draft.operandType
      let operand ← Operand.decode opcode draft.operand
      return ⟨opcode, operand, draft.next⟩ : Decoded Instruction) =
    (fun operand => ⟨i.opcode, operand, i.next⟩) <$> answer := by
  obtain ⟨spelling, hspelling, hopcode⟩ := h.code hcode
  rw [hspelling, require_some, ok_bind, hopcode, ok_bind, h.operandType, ok_bind,
    h.operand hoperand, h.next hnext]
  rfl

namespace Encodes

/-- The operand of an instruction that has one can be decoded wherever it is given. -/
theorem isReadable_operand (h : i.Encodes parts members) (hnone : i.operand ≠ .none)
    (hlevels : 1 < levels) (hd : (Part.operand, d) ∈ parts) : d.isReadable levels = true :=
  Operand.isReadable_of_gives hnone (h.gives _ hd) hlevels

/-- A part is given by one document. -/
theorem unique (h : i.Encodes parts members) {part : Part} {d' : Document}
    (hd : (part, d) ∈ parts) (hd' : (part, d') ∈ parts) : d = d' :=
  congrArg Prod.snd (List.inj_on_of_nodup_map h.once hd hd' rfl)

/-- An object that gives an instruction is decoded as it, with the operand that is decoded from the
member of the operand. -/
theorem decode_eq (hkind : i.opcode.operandKind = i.operand.kind) (h : i.Encodes parts members)
    (hanswer : i.operand = .none → answer = .ok .none)
    (hzero : ∀ part ∈ parts, part.1 ≠ .operand → part.2 ≠ negativeZero)
    (hoperand : ∀ d, (Part.operand, d) ∈ parts →
      d.isReadable (levels - 1) = true ∧ Operand.decode i.opcode d = answer) :
    decode levels (.object members) =
      (fun operand => ⟨i.opcode, operand, i.next⟩) <$> answer := by
  obtain ⟨draft, hdraft, hdrafted⟩ := (Drafted.empty hkind hanswer).run h.named h.once nofun
    h.gives hzero hoperand
  unfold decode
  show (decodeMembers fields (decodeField (levels - 1)) [] {} members >>= _) = _
  rw [show decodeMembers fields (decodeField (levels - 1)) [] {} members = _ from hdraft, ok_bind]
  have hmem : ∀ {part : Part}, part ∈ parts.map Prod.fst →
      part ∈ (parts.map Prod.fst).reverse ++ [] := by simp
  exact hdrafted.finish (hmem h.code) (h.operand.imp id hmem) (h.next.imp id hmem)

/-- An object with a member that is malformed is refused. -/
theorem decode_eq_malformed (h : i.Encodes parts members) {part : Part} (hd : (part, d) ∈ parts)
    (hmalformed : ∀ draft,
      decodeField (levels - 1) draft part.index d = .error .malformedDocument) :
    decode levels (.object members) = .error .malformedDocument := by
  have hmembers : decodeMembers fields (decodeField (levels - 1)) ([].map Part.index) {} members =
      .error .malformedDocument :=
    decodeMembers_of_malformed h.named h.once (fun _ _ => nofun) hd hmalformed
  unfold decode
  show (decodeMembers fields (decodeField (levels - 1)) [] {} members >>= _) = _
  rw [show decodeMembers fields (decodeField (levels - 1)) [] {} members = _ from hmembers]
  rfl

/-- An object that gives an instruction is decoded as it, if no integer in it is the zero with a
sign and its operand can be decoded. -/
theorem decode_eq_ok (hkind : i.opcode.operandKind = i.operand.kind) (h : i.Encodes parts members)
    (hzero : ∀ part ∈ parts, ¬i.HoldsNegativeZero part.1 part.2)
    (hreadable : ∀ d, (Part.operand, d) ∈ parts → d.isReadable (levels - 1) = true) :
    decode levels (.object members) = .ok i := by
  have hothers : ∀ part ∈ parts, part.1 ≠ .operand → part.2 ≠ negativeZero := by
    rintro ⟨part, d⟩ hmem hpart
    have hpartZero := hzero _ hmem
    cases part with
    | operand => exact absurd rfl hpart
    | code | operandType | next => exact hpartZero
  have hoperand : ∀ d, (Part.operand, d) ∈ parts →
      d.isReadable (levels - 1) = true ∧ Operand.decode i.opcode d = .ok i.operand := fun d hd =>
    ⟨hreadable d hd, Operand.decode_of_gives hkind (h.gives _ hd) (hzero _ hd)⟩
  exact (h.decode_eq hkind (congrArg Except.ok) hothers hoperand).trans rfl

/-- An object with a zero that has a sign is refused, wherever it stands. -/
theorem decode_eq_error (hkind : i.opcode.operandKind = i.operand.kind)
    (h : i.Encodes parts members) (hlevels : 2 < levels)
    (hzero : ∃ part ∈ parts, i.HoldsNegativeZero part.1 part.2) :
    ∃ e, decode levels (.object members) = .error e := by
  by_cases hother : ∃ part ∈ parts, part.1 ≠ .operand ∧ part.2 = negativeZero
  · obtain ⟨⟨part, -⟩, hmem, hpart, rfl⟩ := hother
    exact ⟨_, h.decode_eq_malformed hmem (decodeField_negativeZero hpart)⟩
  · -- The zero stands in the operand, and the other members are decoded.
    obtain ⟨⟨part, d⟩, hmem, hholds⟩ := hzero
    obtain rfl : part = .operand := by
      by_contra hpart
      refine hother ⟨_, hmem, hpart, ?_⟩
      cases part with
      | operand => exact absurd rfl hpart
      | code | operandType | next => exact hholds
    have hnone : i.operand ≠ .none := by
      intro hnone
      rw [HoldsNegativeZero, hnone] at hholds
      exact hholds
    obtain ⟨reason, hrefused⟩ :=
      Operand.decode_of_holdsNegativeZero hkind (h.gives _ hmem) hholds
    have hothers : ∀ part ∈ parts, part.1 ≠ .operand → part.2 ≠ negativeZero :=
      fun part hpart hne hzero => hother ⟨part, hpart, hne, hzero⟩
    have hoperand : ∀ d', (Part.operand, d') ∈ parts → d'.isReadable (levels - 1) = true ∧
        Operand.decode i.opcode d' = .error (.invalidOperand i.opcode reason) := by
      intro d' hd'
      obtain rfl := h.unique hmem hd'
      exact ⟨h.isReadable_operand hnone (by omega) hd', hrefused⟩
    exact ⟨_, h.decode_eq hkind (fun hnone' => absurd hnone' hnone) hothers hoperand⟩

end Encodes

end run

/-- **Every spelling of an instruction is decoded as it.** The text holds an object whose members
give the instruction, in any order and spelling. It is decoded as the instruction, unless an integer
in it is the zero with a sign or its operand cannot be decoded, which is possible only if the
instruction has none. In either case the text is refused. -/
theorem parse_of_encodes {i : Instruction} {parts : List (Part × Document)}
    {members : List (String × Document)} {text : String}
    (hkind : i.opcode.operandKind = i.operand.kind) (h : i.Encodes parts members)
    (hread : read (Text.source text.toList) = (.object members, true)) :
    ((∀ part ∈ parts, ¬i.HoldsNegativeZero part.1 part.2) →
      (i.operand = .none →
        ∀ d, (Part.operand, d) ∈ parts → d.isReadable (depthLimit - 1) = true) →
      parse text = .ok i) ∧
    (∀ d, (Part.operand, d) ∈ parts → ¬d.isReadable (depthLimit - 1) = true →
      parse text = .error .malformedDocument) ∧
    ((∃ part ∈ parts, i.HoldsNegativeZero part.1 part.2) → ∃ e, parse text = .error e) := by
  have hparse : parse text =
      (decode depthLimit (.object members)).mapError FormatError.ofDocument :=
    decodeSource_of_read _ hread
  refine ⟨fun hzero hreadable => ?_, fun d hd hunreadable => ?_, fun hzero => ?_⟩
  · have hgiven : ∀ d, (Part.operand, d) ∈ parts → d.isReadable (depthLimit - 1) = true := by
      intro d hd
      by_cases hnone : i.operand = .none
      · exact hreadable hnone d hd
      · exact h.isReadable_operand hnone (by decide) hd
    rw [hparse, h.decode_eq_ok hkind hzero hgiven]
    rfl
  · rw [hparse, h.decode_eq_malformed hd (decodeField_operand_of_not_readable hunreadable)]
    rfl
  · have hlevels : 2 < depthLimit := by decide
    obtain ⟨e, he⟩ := h.decode_eq_error hkind hlevels hzero
    exact ⟨e.ofDocument, by rw [hparse, he]; rfl⟩

/-- A branch with two targets. -/
def twoWays : Instruction := ⟨.switch, .targets [1, 2], some 9⟩

/-- Its targets, one of them a string of digits. -/
def twoWaysTargets : Document := .array [ofNat 1, ofString "2"]

/-- Its parts, in some order. The targets are a string that holds an array. -/
def twoWaysParts : List (Part × Document) :=
  [(.next, ofNat 9), (.operand, ofString twoWaysTargets.pretty), (.operandType, ofNat 7),
    (.code, ofString "SWITCH.")]

/-- An object that gives it. -/
def twoWaysObject : Document :=
  ofMembers [("NextOffset", ofNat 9), ("Operand", ofString twoWaysTargets.pretty),
    ("OperandType", ofNat 7), ("Code", ofString "SWITCH.")]

/-- A name in upper case, with a dot at its end. -/
theorem spells_switch : Opcode.Spells "SWITCH." "switch" :=
  ⟨"SWITCH".toList, "switch".toList, ['.'], [], rfl, rfl, by decide +kernel,
    List.forall_mem_singleton.2 (.inl rfl), nofun⟩

/-- The string of the two targets holds them as an array. -/
theorem unfolds_twoWays :
    (ofString twoWaysTargets.pretty).Unfolds [ofNat 1, ofString "2"] := by
  have hwritten : twoWaysTargets.IsWritten := ⟨isWritten_ofNat 1, isWritten_ofString "2", trivial⟩
  exact .inr ⟨_, writesString_ofString _, read_source_pretty hwritten⟩

/-- The string of the two targets gives them. -/
theorem writesTargets_twoWays :
    Document.WritesTargets [1, 2] (ofString twoWaysTargets.pretty) := by
  have hsecond : Document.WritesInteger ((2 : UInt32).toNat : Int) (ofString "2") :=
    .inr (writesString_ofString "2")
  exact ⟨_, .cons (.inl (writesNumber_ofNat 1)) (.cons hsecond .nil), unfolds_twoWays⟩

/-- No integer of the two-way branch is the zero with a sign. -/
theorem not_holdsNegativeZero_twoWays :
    ∀ part ∈ twoWaysParts, ¬twoWays.HoldsNegativeZero part.1 part.2 := by
  have htargets : ¬twoWays.HoldsNegativeZero .operand (ofString twoWaysTargets.pretty) := by
    rintro ⟨items, hunfolds, hmem⟩
    rw [hunfolds.unique unfolds_twoWays, List.mem_pair] at hmem
    rcases hmem with hfirst | hsecond
    · exact ofNat_ne_negativeZero 1 hfirst.symm
    · cases hsecond
  simp only [twoWaysParts, List.forall_mem_cons]
  exact ⟨ofNat_ne_negativeZero 9, htargets, ofNat_ne_negativeZero 7, nofun, nofun⟩

/-- The object gives the two-way branch. -/
theorem encodes_twoWays : ∃ members, twoWaysObject = .object members ∧
    twoWays.Encodes twoWaysParts members := by
  refine ⟨_, rfl, ?_, by decide, by decide, .inr (by decide), .inr (by decide), ?_⟩
  · exact .cons ⟨⟨"NextOffset", by decide, textOf?_encode _⟩, rfl⟩
      (.cons ⟨⟨"Operand", by decide, textOf?_encode _⟩, rfl⟩
        (.cons ⟨⟨"OperandType", by decide, textOf?_encode _⟩, rfl⟩
          (.cons ⟨⟨"Code", by decide, textOf?_encode _⟩, rfl⟩ .nil)))
  · simp only [twoWaysParts, List.forall_mem_cons]
    exact ⟨writesNumber_ofNat 9, writesTargets_twoWays,
      .inr (.inr ⟨7, by decide, writesNumber_ofNat 7⟩),
      .inl ⟨"switch", .head _, "SWITCH.", spells_switch, writesString_ofString _⟩, nofun⟩

/-- The object is one that can be written. -/
theorem isWritten_twoWays : twoWaysObject.IsWritten := by
  refine isWritten_ofMembers ?_
  simp only [List.forall_mem_cons]
  exact ⟨isWritten_ofNat 9, isWritten_ofString _, isWritten_ofNat 7, isWritten_ofString _, nofun⟩

/-- The text of such an object. -/
def twoWaysText : String :=
  "\x7b\n  \"NextOffset\": 9,\n  \"Operand\": \"[\\n  1,\\n  \\\"2\\\"\\n]\",\n" ++
    "  \"OperandType\": 7,\n  \"Code\": \"SWITCH.\"\n\x7d"

/-- A name spells itself. -/
theorem writesCode_self {i : Instruction} {raw : String}
    (hraw : textOf? raw = some i.opcode.mnemonic) : i.Gives .code (.string raw) := by
  have hspells : Opcode.Spells i.opcode.mnemonic i.opcode.mnemonic :=
    ⟨_, _, [], [], (List.append_nil _).symm, (List.append_nil _).symm,
      List.forall₂_same.2 fun c _ => .inl rfl, nofun, nofun⟩
  exact .inl ⟨_, .head _, _, hspells, raw, rfl, hraw⟩

/-- The members of an object that gives an instruction by a name and an operand. -/
def plainMembers (name : String) (operand : Document) : List (String × Document) :=
  [("code", .string name), ("operand", operand)]

/-- An object with a name and what an operand may hold gives the instruction. -/
theorem encodes_plain {opcode : Opcode} {operand : Operand} {d : Document} {raw : String}
    (hraw : textOf? raw = some opcode.mnemonic) (hd : operand.Gives d) :
    (⟨opcode, operand, none⟩ : Instruction).Encodes [(.code, .string raw), (.operand, d)]
      (plainMembers raw d) where
  named :=
    have hcode : Part.code.Named "code" := ⟨"code", .head _, by decide +kernel⟩
    have hoperand : Part.operand.Named "operand" := ⟨"operand", .head _, by decide +kernel⟩
    .cons ⟨hcode, rfl⟩ (.cons ⟨hoperand, rfl⟩ .nil)
  once := show [Part.code, .operand].Nodup by decide
  code := .head _
  operand := .inr (.tail _ (.head _))
  next := .inl rfl
  gives := by
    simp only [List.forall_mem_cons]
    exact ⟨writesCode_self hraw, hd, nofun⟩

/-- An operand that cannot be decoded. -/
def overflow : Document := .number "1e2147483648"

/-- An instruction without operand, with that operand. -/
def overflowText : String := "\x7b\"code\":\"nop\",\"operand\":1e2147483648\x7d"

/-- The opcode takes no operand, so anything may stand as one. -/
theorem encodes_overflow : (⟨.nop, .none, none⟩ : Instruction).Encodes
    [(.code, .string "nop"), (.operand, overflow)] (plainMembers "nop" overflow) :=
  encodes_plain (by decide +kernel) trivial

/-- The text of that encoding is read as its members. -/
theorem read_overflow : read (Text.source overflowText.toList) =
    (.object (plainMembers "nop" overflow), true) := by
  unfold overflowText plainMembers overflow
  cbv

/-- An instruction with the zero that has a sign. -/
def negativeZeroText : String := "\x7b\"code\":\"ldc.i4\",\"operand\":-0\x7d"

/-- The zero with a sign is one of the ways to write zero. -/
theorem encodes_negativeZero : (⟨.ldcI4, .int 0, none⟩ : Instruction).Encodes
    [(.code, .string "ldc.i4"), (.operand, negativeZero)] (plainMembers "ldc.i4" negativeZero) :=
  encodes_plain (by decide +kernel) (.inl (.inr ⟨rfl, rfl⟩))

/-- The text of that encoding is read as its members. -/
theorem read_negativeZero : read (Text.source negativeZeroText.toList) =
    (.object (plainMembers "ldc.i4" negativeZero), true) := by
  unfold negativeZeroText plainMembers negativeZero
  cbv

/-- The branch is decoded from an object with the other names of its members, in another order. An
operand that cannot be decoded and a zero with a sign are refused. -/
theorem parse_of_encodes_twoWays :
    parse twoWaysText = .ok twoWays ∧ parse overflowText = .error .malformedDocument ∧
      ∃ e, parse negativeZeroText = .error e := by
  refine ⟨?_, ?_, ?_⟩
  · obtain ⟨members, hobject, hencodes⟩ := encodes_twoWays
    have htext : twoWaysText = twoWaysObject.pretty := by decide +kernel
    have hread : read (Text.source twoWaysText.toList) = (.object members, true) := by
      rw [htext, read_source_pretty isWritten_twoWays, hobject]
    exact (parse_of_encodes rfl hencodes hread).1 not_holdsNegativeZero_twoWays nofun
  · have hunreadable : ¬overflow.isReadable (depthLimit - 1) = true := by decide +kernel
    exact (parse_of_encodes rfl encodes_overflow read_overflow).2.1 overflow (.tail _ (.head _))
      hunreadable
  · exact (parse_of_encodes rfl encodes_negativeZero read_negativeZero).2.2
      ⟨_, .tail _ (.head _), rfl⟩

/-- Not every object that gives an instruction is decoded as it, even if no integer in it is the
zero with a sign: a numeral out of range, in an operand that nothing asks for, is refused. And not
every one whose operand can be decoded is: the zero with a sign is refused. -/
theorem not_forall_parse_of_encodes :
    (¬∀ (i : Instruction) (parts : List (Part × Document)) (members : List (String × Document))
      (text : String), i.opcode.operandKind = i.operand.kind → i.Encodes parts members →
        (∀ part ∈ parts, ¬i.HoldsNegativeZero part.1 part.2) →
        read (Text.source text.toList) = (.object members, true) → parse text = .ok i) ∧
    ¬∀ (i : Instruction) (parts : List (Part × Document)) (members : List (String × Document))
      (text : String), i.opcode.operandKind = i.operand.kind → i.Encodes parts members →
        (∀ d, (Part.operand, d) ∈ parts → d.isReadable (depthLimit - 1) = true) →
        read (Text.source text.toList) = (.object members, true) → parse text = .ok i := by
  constructor
  · intro h
    have hzero : ∀ part ∈ [(Part.code, Document.string "nop"), (.operand, overflow)],
        ¬(⟨.nop, .none, none⟩ : Instruction).HoldsNegativeZero part.1 part.2 := by
      simp only [List.forall_mem_cons]
      exact ⟨nofun, not_false, nofun⟩
    have hparse := h _ _ _ _ rfl encodes_overflow hzero read_overflow
    have hrefused : parse overflowText = .error .malformedDocument := by decide +kernel
    rw [hrefused] at hparse
    cases hparse
  · intro h
    have hreadable : ∀ d, (Part.operand, d) ∈
        [(Part.code, Document.string "ldc.i4"), (.operand, negativeZero)] →
        d.isReadable (depthLimit - 1) = true := by
      intro d hd
      obtain rfl : d = negativeZero := by simpa using hd
      rfl
    have hparse := h _ _ _ _ rfl encodes_negativeZero hreadable read_negativeZero
    have hrefused : parse negativeZeroText =
        .error (.refusedDocument (.invalidOperand .ldcI4 "expected an integer")) := by
      decide +kernel
    rw [hrefused] at hparse
    cases hparse

end Instruction

end Hotswap
