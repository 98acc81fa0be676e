import Hotswap.Descriptor.Wire
import Hotswap.Proofs.Instruction.Wire
import Hotswap.Proofs.Signature
import Hotswap.Proofs.Table

/-!
# Descriptors that are written and read

A descriptor is read back from its text if its names are ones that the parsers give, every operand
is of the kind that its opcode takes, and no operand is a floating-point number
(`Descriptor.parse_toText`).

The instructions go into an object under their offsets in decimal. They stand there in the order of
the offsets, so each one is put behind those that were read before it, and the table that is read
has the entries of the table that was written. Everything but the operands is read back in any case
(`Descriptor.parse_toText_eq`).
-/

namespace Hotswap

open Document

/-! ## Names -/

/-- A type name that can be read is read back from its document. -/
theorem TypeName.decode_toDocument {t : TypeName} (h : t.WellFormed) :
    TypeName.decode t.toDocument = .ok t := by
  unfold TypeName.decode TypeName.toDocument
  rw [decodeString_ofString, ok_bind, TypeName.parse_render h]

/-- A signature that can be read is read back from its text. -/
theorem Signature.decode_render {s : Signature} (h : s.WellFormed) :
    Signature.decode (ofString s.render) = .ok s := by
  unfold Signature.decode
  rw [decodeString_ofString, ok_bind, Signature.parse_render h]

/-- Type names that can be read are read back from their array. -/
theorem decodeArray_typeNames {ts : List TypeName} (h : ∀ t ∈ ts, t.WellFormed) :
    decodeArray TypeName.decode (.array (ts.map TypeName.toDocument)) = .ok ts := by
  rw [decodeArray]
  exact decodeItems_map fun t ht => TypeName.decode_toDocument (h t ht)

/-- A list of type names is an array of strings. -/
theorem isWritten_typeNames (ts : List TypeName) :
    (Document.array (ts.map TypeName.toDocument)).IsWritten := by
  refine areWritten_iff.2 fun d hd => ?_
  obtain ⟨t, -, rfl⟩ := List.mem_map.1 hd
  exact isWritten_ofString _

/-! ## Offsets -/

/-- A digit is written as it is. -/
theorem encodeChar_of_isDigit {c : Char} (h : c.isDigit = true) : encodeChar c = [c] := by
  have hrange := Decimal.toNat_of_isDigit h
  have hne : ∀ e : Char, (e.toNat < 48 ∨ 57 < e.toNat) → c ≠ e := by
    intro e he heq
    subst heq
    omega
  have hcontrol : ¬c.toNat < 0x20 := by omega
  simp [encodeChar, hne, hcontrol]

/-- A text of digits has no escapes. -/
theorem encodeText_toDigits (n : Nat) :
    encodeText (Nat.toDigits 10 n) = Nat.toDigits 10 n := by
  have hdigits : ∀ c ∈ Nat.toDigits 10 n, encodeChar c = [c] := fun c hc =>
    encodeChar_of_isDigit (Decimal.isDigit_of_mem_toDigits hc)
  rw [encodeText, List.flatMap_congr hdigits]
  simp

/-- The offset of an instruction is read back from the name of its member. -/
theorem offsetOfName?_repr (o : UInt32) :
    offsetOfName? (String.ofList (encodeText (Nat.repr o.toNat).toList)) = some o := by
  have hfits : o.toNat < UInt64.size := Nat.lt_trans o.toNat_lt (by decide)
  have htaken : takeNumeral (Nat.toDigits 10 o.toNat) = some (Nat.toDigits 10 o.toNat, []) := by
    have h := NumeralChars.taken (isNumeral_repr o.toNat) (headNot_nil _)
    rwa [Nat.toList_repr, List.append_nil] at h
  have hbelow : (Number.nat (UInt64.ofNat o.toNat)).below? UInt32.size = some o.toNat := by
    rw [Number.below?, UInt64.toNat_ofNat_of_lt' hfits, if_pos o.toNat_lt]
  unfold offsetOfName?
  rw [Nat.toList_repr, encodeText_toDigits, String.toList_ofList, htaken]
  show ((numberOf? (String.ofList (Nat.toDigits 10 o.toNat))).bind
    (·.below? UInt32.size)).map UInt32.ofNat = _
  rw [← Nat.toList_repr, String.ofList_toList, numberOf?_repr hfits]
  show ((Number.nat (UInt64.ofNat o.toNat)).below? UInt32.size).map UInt32.ofNat = _
  rw [hbelow, Option.map_some, UInt32.ofNat_toNat]

/-! ## Bodies -/

namespace Body

/-- The members of the object of instructions. -/
def instructionMembers (entries : List (UInt32 × Instruction)) : List (String × Document) :=
  entries.map fun e => (String.ofList (encodeText (Nat.repr e.1.toNat).toList), e.2.toDocument)

/-- Written instructions are decoded one after the other, each into the table of those before it. -/
theorem decodeInstructions_cons (levels : Nat) (t : Table UInt32 Instruction) (o : UInt32)
    (i : Instruction) (rest : List (UInt32 × Instruction)) :
    decodeInstructions levels t (instructionMembers ((o, i) :: rest)) =
      Instruction.decode levels i.toDocument >>= fun i =>
        decodeInstructions levels (t.insert o i) (instructionMembers rest) := by
  rw [instructionMembers, List.map_cons, decodeInstructions, offsetOfName?_repr, require_some,
    ok_bind]
  rfl

/-- Instructions that are read back are put into the table in the order they are written. -/
theorem decodeInstructions_entries {levels : Nat} {t u : Table UInt32 Instruction}
    {rest : List (UInt32 × Instruction)} (hentries : u.entries = t.entries ++ rest)
    (h : ∀ e ∈ rest, Instruction.decode levels e.2.toDocument = .ok e.2) :
    decodeInstructions levels t (instructionMembers rest) = .ok u := by
  induction rest generalizing t with
  | nil =>
    have hsame : t = u := Table.ext (by rw [hentries, List.append_nil])
    rw [hsame]
    rfl
  | cons e rest ih =>
    obtain ⟨he, hrest⟩ := List.forall_mem_cons.1 h
    -- The offsets increase, so the next one is larger than those in the table.
    have hlarger : ∀ e' ∈ t.entries, compare e'.1 e.1 = .lt := by
      have hincreasing := u.increasing
      rw [hentries, List.pairwise_append] at hincreasing
      exact fun e' he' => hincreasing.2.2 e' he' e List.mem_cons_self
    rw [decodeInstructions_cons, he]
    refine ih ?_ hrest
    rw [Table.entries_insert e.2 hlarger, hentries, List.append_assoc]
    rfl

/-- Instructions are read exactly if each of them is. -/
theorem exists_decodeInstructions_iff {levels : Nat} {t : Table UInt32 Instruction}
    {entries : List (UInt32 × Instruction)} :
    (∃ u, decodeInstructions levels t (instructionMembers entries) = .ok u) ↔
      ∀ e ∈ entries, ∃ i, Instruction.decode levels e.2.toDocument = .ok i := by
  induction entries generalizing t with
  | nil =>
    refine ⟨fun _ e he => ?_, fun _ => ⟨t, rfl⟩⟩
    cases he
  | cons e rest ih =>
    rw [List.forall_mem_cons, decodeInstructions_cons]
    constructor
    · rintro ⟨u, hu⟩
      obtain ⟨i, hi, hrest⟩ := bind_eq_ok.1 hu
      exact ⟨⟨i, hi⟩, ih.1 ⟨u, hrest⟩⟩
    · rintro ⟨⟨i, hi⟩, hrest⟩
      obtain ⟨u, hu⟩ := (ih (t := t.insert e.1 i)).2 hrest
      exact ⟨u, bind_eq_ok.2 ⟨i, hi, hu⟩⟩

/-- A written body is read back, with the instructions that its instructions are read as. -/
theorem decode_toDocument {b : Body} {levels : Nat} (h : ∀ t ∈ b.locals, t.WellFormed) :
    decode levels b.toDocument =
      (fun t => { b with instructions := t }) <$>
        decodeInstructions (levels - 1 - 1) ∅ (instructionMembers b.instructions.entries) := by
  have hinstructions : ofMembers (b.instructions.entries.map fun e =>
      (Nat.repr e.1.toNat, e.2.toDocument)) =
      .object (instructionMembers b.instructions.entries) := by
    rw [ofMembers, List.map_map]
    rfl
  have hstack : ∀ draft : Draft, decodeField (levels - 1) draft 0 (ofNat b.maxStack.toNat) =
      .ok { draft with maxStack := b.maxStack } := by
    intro draft
    rw [decodeField, decodeUInt32_ofNat]
    rfl
  have hlocals : ∀ draft : Draft, decodeField (levels - 1) draft 1
      (.array (b.locals.map TypeName.toDocument)) = .ok { draft with locals := b.locals } := by
    intro draft
    rw [decodeField, decodeArray_typeNames h]
    rfl
  have hlast : ∀ draft : Draft, decodeField (levels - 1) draft 2
      (.object (instructionMembers b.instructions.entries)) =
      decodeInstructions (levels - 1 - 1) ∅ (instructionMembers b.instructions.entries) >>=
        fun t => .ok { draft with instructions := some t } := fun _ => rfl
  unfold decode toDocument
  rw [hinstructions, ofMembers, decodeRecord]
  simp only [List.map_cons, List.map_nil]
  rw [decodeMembers_cons (i := 0) rfl rfl, hstack, ok_bind,
    decodeMembers_cons (i := 1) rfl rfl, hlocals, ok_bind,
    decodeMembers_cons (i := 2) rfl rfl, hlast]
  cases decodeInstructions (levels - 1 - 1) ∅ (instructionMembers b.instructions.entries) <;> rfl

/-- A written body is an object of such arrays and numbers. -/
theorem isWritten_toDocument (b : Body) : b.toDocument.IsWritten := by
  refine isWritten_ofMembers fun m hm => ?_
  simp only [List.mem_cons, List.not_mem_nil, or_false] at hm
  rcases hm with rfl | rfl | rfl
  · exact isWritten_ofNat _
  · exact isWritten_typeNames _
  · refine isWritten_ofMembers fun m' hm' => ?_
    obtain ⟨e, -, rfl⟩ := List.mem_map.1 hm'
    exact Instruction.isWritten_toDocument e.2

end Body

/-! ## Descriptors -/

namespace Descriptor

/-- The names in a descriptor are ones that can be read. -/
structure NamesWellFormed (d : Descriptor) : Prop where
  /-- The signature of the method. -/
  name : d.name.WellFormed
  /-- The types of the parameters. -/
  parameters : ∀ t ∈ d.parameters, t.WellFormed
  /-- The type of the result. -/
  returnType : d.returnType.WellFormed
  /-- The types of the locals. -/
  locals : ∀ t ∈ d.body.locals, t.WellFormed

/-- A written descriptor is read back, with the instructions that its instructions are read as. -/
theorem decode_toDocument {d : Descriptor} {levels : Nat} (h : d.NamesWellFormed) :
    decode levels d.toDocument =
      (fun t => { d with body := { d.body with instructions := t } }) <$>
        Body.decodeInstructions (levels - 1 - 1 - 1) ∅
          (Body.instructionMembers d.body.instructions.entries) := by
  have hname : ∀ draft : Draft, decodeField (levels - 1) draft 0 (ofString d.name.render) =
      .ok { draft with name := some d.name } := by
    intro draft
    rw [decodeField, Signature.decode_render h.name]
    rfl
  have hstatic : ∀ draft : Draft, decodeField (levels - 1) draft 1 (.bool d.isStatic) =
      .ok { draft with isStatic := some d.isStatic } := fun _ => rfl
  have hparameters : ∀ draft : Draft, decodeField (levels - 1) draft 2
      (.array (d.parameters.map TypeName.toDocument)) =
      .ok { draft with parameters := d.parameters } := by
    intro draft
    rw [decodeField, decodeArray_typeNames h.parameters]
    rfl
  have hreturn : ∀ draft : Draft, decodeField (levels - 1) draft 3 d.returnType.toDocument =
      .ok { draft with returnType := some d.returnType } := by
    intro draft
    rw [decodeField, TypeName.decode_toDocument h.returnType]
    rfl
  have hbody : ∀ draft : Draft, decodeField (levels - 1) draft 4 d.body.toDocument =
      Body.decode (levels - 1) d.body.toDocument >>=
        fun b => .ok { draft with body := some b } := fun _ => rfl
  unfold decode toDocument
  rw [ofMembers, decodeRecord]
  simp only [List.map_cons, List.map_nil]
  rw [decodeMembers_cons (i := 0) rfl rfl, hname, ok_bind,
    decodeMembers_cons (i := 1) rfl rfl, hstatic, ok_bind,
    decodeMembers_cons (i := 2) rfl rfl, hparameters, ok_bind,
    decodeMembers_cons (i := 3) rfl rfl, hreturn, ok_bind,
    decodeMembers_cons (i := 4) rfl rfl, hbody, Body.decode_toDocument h.locals]
  cases Body.decodeInstructions (levels - 1 - 1 - 1) ∅
    (Body.instructionMembers d.body.instructions.entries) <;> rfl

/-- A written descriptor is an object of such documents. -/
theorem isWritten_toDocument (d : Descriptor) : d.toDocument.IsWritten := by
  refine isWritten_ofMembers fun m hm => ?_
  simp only [List.mem_cons, List.not_mem_nil, or_false] at hm
  rcases hm with rfl | rfl | rfl | rfl | rfl
  · exact isWritten_ofString _
  · exact trivial
  · exact isWritten_typeNames _
  · exact isWritten_ofString _
  · exact Body.isWritten_toDocument d.body

/-- What is read from the text of a descriptor: the descriptor, with the instructions that its
instructions are read as. -/
theorem parse_toText_eq {d : Descriptor} (hnames : d.NamesWellFormed) :
    parse d.toText =
      ((fun t => { d with body := { d.body with instructions := t } }) <$>
        Body.decodeInstructions 125 ∅
          (Body.instructionMembers d.body.instructions.entries)).mapError
        FormatError.ofDocument := by
  unfold parse toText
  rw [decodeSource_pretty _ (isWritten_toDocument d), decode_toDocument hnames]
  rfl

/-- The names in a descriptor are ones that the parsers give. -/
structure NamesParsed (d : Descriptor) : Prop where
  /-- The signature of the method. -/
  name : ∃ text, Signature.parse text = .ok d.name
  /-- The types of the parameters. -/
  parameters : ∀ t ∈ d.parameters, ∃ text, TypeName.parse text = .ok t
  /-- The type of the result. -/
  returnType : ∃ text, TypeName.parse text = .ok d.returnType
  /-- The types of the locals. -/
  locals : ∀ t ∈ d.body.locals, ∃ text, TypeName.parse text = .ok t

/-- What the parsers give can be read. -/
theorem NamesParsed.wellFormed {d : Descriptor} (h : d.NamesParsed) : d.NamesWellFormed := by
  have htype : ∀ t, (∃ text, TypeName.parse text = .ok t) → t.WellFormed := by
    rintro t ⟨text, ht⟩
    exact TypeName.wellFormed_of_parse ht
  obtain ⟨text, hname⟩ := h.name
  exact ⟨Signature.wellFormed_of_parse hname, fun t ht => htype t (h.parameters t ht),
    htype _ h.returnType, fun t ht => htype t (h.locals t ht)⟩

/-- **A descriptor is read back from its text**, if its names are parsed, its operands are of the
kinds that their opcodes take, and no operand is a floating-point number. -/
theorem parse_toText {d : Descriptor} (hnames : d.NamesParsed)
    (hkind : ∀ o i, d.body.instructions.get? o = some i → i.operand.kind = i.opcode.operandKind)
    (hfloat : ∀ o i, d.body.instructions.get? o = some i → ∀ x, i.operand ≠ .float x) :
    parse d.toText = .ok d := by
  have hheld : ∀ e ∈ d.body.instructions.entries, d.body.instructions.get? e.1 = some e.2 :=
    fun _ he => Table.get?_eq_some_iff.2 he
  have hread : ∀ e ∈ d.body.instructions.entries,
      Instruction.decode 125 e.2.toDocument = .ok e.2 := by
    intro e he
    have hnone := hfloat e.1 e.2 (hheld e he)
    have hoperand := Operand.decode_toDocument (hkind e.1 e.2 (hheld e he)).symm hnone
    rw [Instruction.decode_toDocument e.2 (by decide), hoperand]
    rfl
  have hentries : d.body.instructions.entries =
      (∅ : Table UInt32 Instruction).entries ++ d.body.instructions.entries := rfl
  rw [parse_toText_eq hnames.wellFormed, Body.decodeInstructions_entries hentries hread]
  rfl

/-- A method with operands at the ends of their ranges and a string with escapes. -/
def escapes : Descriptor where
  name := ⟨.named "Log" [], "Write", [], [.named "System.UInt16" []]⟩
  isStatic := true
  parameters := [.named "System.UInt16" []]
  returnType := .named "System.Void" []
  body := {
    maxStack := 4294967295
    locals := [.suffixed (.named "System.Int64" []) .array]
    instructions := .ofList [
      (0, ⟨.ldstr, .string "a \"line\"\n\x01", some 5⟩),
      (5, ⟨.ldcI8, .int Int64.minValue, some 14⟩),
      (14, ⟨.ldarg, .slot 65535, some 18⟩),
      (18, ⟨.switch, .targets [0, 5, 4294967295], none⟩)] }

/-- The method is read back from its text. -/
theorem parse_toText_escapes : parse escapes.toText = .ok escapes := by
  have hnames : escapes.NamesParsed := {
    name := ⟨"Log::Write(System.UInt16)", by cbv⟩
    parameters := List.forall_mem_singleton.2 ⟨"System.UInt16", by cbv⟩
    returnType := ⟨"System.Void", by cbv⟩
    locals := List.forall_mem_singleton.2 ⟨"System.Int64[]", by cbv⟩ }
  have heach : ∀ e ∈ escapes.body.instructions.entries,
      e.2.operand.kind = e.2.opcode.operandKind ∧ e.2.operand.kind ≠ .float := by decide
  refine parse_toText hnames (fun o i hi => ?_) (fun o i hi x hx => ?_)
  · exact (heach _ (Table.get?_eq_some_iff.1 hi)).1
  · refine (heach _ (Table.get?_eq_some_iff.1 hi)).2 ?_
    rw [hx]
    rfl

end Descriptor

end Hotswap
