import Hotswap.Proofs.Descriptor.Wire

/-!
# Descriptors that are accepted

A descriptor that was read has names that the parsers give and operands of the kinds that their
opcodes take (`Descriptor.accepted_of_parse`). So its text is accepted again but for one kind of
operand: an infinity and what is not a number can be given as strings, are written as `null`, and
are refused there. `Descriptor.exists_parse_toText_iff` says that this is the only case.
-/

namespace Hotswap

open Document

/-! ## Operands -/

/-- A floating-point number is read again exactly if it is finite. -/
theorem Operand.floatOf?_ofFloat_isSome (x : Float) :
    (floatOf? (ofFloat x)).isSome = x.isFinite := by
  cases h : x.isFinite with
  | true =>
    obtain ⟨negative, m, q, hm, hq, hnumeral⟩ := ofFloat_of_isFinite h
    rw [hnumeral, floatOf?, Option.isSome_map]
    exact numberOf?_finite_isSome negative hm hq
  | false =>
    rw [ofFloat_of_not_isFinite h]
    rfl

/-- A floating-point operand is decoded by that reader. -/
theorem Operand.decode_float {opcode : Opcode} {x : Float}
    (hkind : (Operand.float x).kind = opcode.operandKind) :
    decode opcode (toDocument (.float x)) =
      match (floatOf? (ofFloat x)).map Operand.float with
      | some operand => .ok operand
      | Option.none => .error (.invalidOperand opcode "expected a number") := by
  unfold decode
  rw [← hkind]
  rfl

/-- A written operand is read again unless it is an infinity or not a number. -/
theorem Operand.exists_decode_toDocument_iff {opcode : Opcode} {operand : Operand}
    (hkind : operand.kind = opcode.operandKind) :
    (∃ operand', decode opcode operand.toDocument = .ok operand') ↔
      ∀ x, operand = .float x → x.isFinite = true := by
  by_cases hfloat : ∃ x, operand = .float x
  · obtain ⟨x, rfl⟩ := hfloat
    have hsome := floatOf?_ofFloat_isSome x
    rw [decode_float hkind]
    cases hread : floatOf? (ofFloat x) with
    | none =>
      rw [hread] at hsome
      constructor
      · rintro ⟨operand', h⟩
        cases h
      · intro h
        rw [h x rfl] at hsome
        cases hsome
    | some y =>
      rw [hread] at hsome
      refine ⟨fun _ x' hx' => ?_, fun _ => ⟨.float y, rfl⟩⟩
      cases hx'
      exact hsome.symm
  · have hnone : ∀ x, operand ≠ .float x := fun x hx => hfloat ⟨x, hx⟩
    exact ⟨fun _ x hx => absurd hx (hnone x),
      fun _ => ⟨operand, decode_toDocument hkind.symm hnone⟩⟩

/-- A written instruction is read again exactly if its operand is. -/
theorem Instruction.exists_decode_toDocument_iff {i : Instruction} {levels : Nat}
    (hlevels : 2 < levels) (hkind : i.operand.kind = i.opcode.operandKind) :
    (∃ i', decode levels i.toDocument = .ok i') ↔
      ∀ x, i.operand = .float x → x.isFinite = true := by
  rw [← Operand.exists_decode_toDocument_iff hkind, decode_toDocument i hlevels]
  constructor
  · rintro ⟨i', h⟩
    obtain ⟨operand, hoperand, -⟩ := map_eq_ok.1 h
    exact ⟨operand, hoperand⟩
  · rintro ⟨operand, hoperand⟩
    exact ⟨_, map_eq_ok.2 ⟨operand, hoperand, rfl⟩⟩

/-! ## What was read -/

/-- A type name that was decoded can be read. -/
theorem TypeName.wellFormed_of_decode {d : Document} {t : TypeName} (h : decode d = .ok t) :
    t.WellFormed := by
  obtain ⟨text, -, hparse⟩ := bind_eq_ok.1 h
  exact TypeName.wellFormed_of_parse hparse

/-- A signature that was decoded can be read. -/
theorem Signature.wellFormed_of_decode {d : Document} {s : Signature} (h : decode d = .ok s) :
    s.WellFormed := by
  obtain ⟨text, -, hparse⟩ := bind_eq_ok.1 h
  exact Signature.wellFormed_of_parse hparse

/-- Every operand in a table is of the kind that its opcode takes. -/
def KindsMatch (t : Table UInt32 Instruction) : Prop :=
  ∀ o i, t.get? o = some i → i.operand.kind = i.opcode.operandKind

/-- There is no operand in the empty table. -/
theorem kindsMatch_empty : KindsMatch ∅ := by
  intro o i hi
  cases hi

namespace Body

/-- The locals of a body can be read, and its operands suit their opcodes. -/
structure Accepted (b : Body) : Prop where
  /-- The types of the locals. -/
  locals : ∀ t ∈ b.locals, t.WellFormed
  /-- The operands. -/
  kinds : KindsMatch b.instructions

/-- Instructions that were decoded have operands that suit their opcodes. -/
theorem kindsMatch_of_decodeInstructions {levels : Nat} {t u : Table UInt32 Instruction}
    {members : List (String × Document)} (ht : KindsMatch t)
    (h : decodeInstructions levels t members = .ok u) : KindsMatch u := by
  induction members generalizing t with
  | nil =>
    cases h
    exact ht
  | cons m rest ih =>
    obtain ⟨raw, d⟩ := m
    rw [decodeInstructions] at h
    obtain ⟨offset, -, h⟩ := bind_eq_ok.1 h
    obtain ⟨i, hi, h⟩ := bind_eq_ok.1 h
    refine ih (fun o j hj => ?_) h
    by_cases ho : o = offset
    · subst ho
      rw [Table.get?_insert_self] at hj
      cases hj
      exact Instruction.operand_kind_of_decode hi
    · rw [Table.get?_insert_of_ne _ _ ho] at hj
      exact ht o j hj

/-- What holds of the parts of a body that have been decoded. -/
structure Draft.Accepted (draft : Draft) : Prop where
  /-- The types of the locals. -/
  locals : ∀ t ∈ draft.locals, t.WellFormed
  /-- The operands. -/
  kinds : ∀ t, draft.instructions = some t → KindsMatch t

/-- Decoding a field keeps what holds of the fields before it. -/
theorem accepted_of_decodeField {levels i : Nat} {draft draft' : Draft} {d : Document}
    (hdraft : draft.Accepted) (h : decodeField levels draft i d = .ok draft') :
    draft'.Accepted := by
  unfold decodeField at h
  split at h
  · obtain ⟨maxStack, -, h⟩ := bind_eq_ok.1 h
    cases h
    exact ⟨hdraft.locals, hdraft.kinds⟩
  · obtain ⟨locals, hlocals, h⟩ := bind_eq_ok.1 h
    cases h
    exact ⟨forall_mem_of_decodeArray TypeName.wellFormed_of_decode hlocals, hdraft.kinds⟩
  · split at h
    · obtain ⟨table, htable, h⟩ := bind_eq_ok.1 h
      cases h
      refine ⟨hdraft.locals, fun t ht => ?_⟩
      cases ht
      exact kindsMatch_of_decodeInstructions kindsMatch_empty htable
    · cases h

/-- A body that was decoded is accepted. -/
theorem accepted_of_decode {levels : Nat} {d : Document} {b : Body} (h : decode levels d = .ok b) :
    b.Accepted := by
  have hstart : ({} : Draft).Accepted := by
    refine ⟨fun t ht => ?_, fun t ht => ?_⟩ <;> cases ht
  obtain ⟨draft, hdraft, h⟩ := bind_eq_ok.1 h
  obtain ⟨table, htable, h⟩ := bind_eq_ok.1 h
  have haccepted := decodeRecord_keeps accepted_of_decodeField hstart hdraft
  cases h
  exact ⟨haccepted.locals, haccepted.kinds table (require_eq_ok.1 htable)⟩

end Body

namespace Descriptor

/-- The names in a descriptor can be read, and its operands suit their opcodes. -/
structure Accepted (d : Descriptor) : Prop extends NamesWellFormed d where
  /-- The operands. -/
  kinds : KindsMatch d.body.instructions

/-- What holds of the parts of a descriptor that have been decoded. -/
structure Draft.Accepted (draft : Draft) : Prop where
  /-- The signature of the method. -/
  name : ∀ s, draft.name = some s → s.WellFormed
  /-- The types of the parameters. -/
  parameters : ∀ t ∈ draft.parameters, t.WellFormed
  /-- The type of the result. -/
  returnType : ∀ t, draft.returnType = some t → t.WellFormed
  /-- The body. -/
  body : ∀ b, draft.body = some b → b.Accepted

/-- Decoding a field keeps what holds of the fields before it. -/
theorem accepted_of_decodeField {levels i : Nat} {draft draft' : Draft} {d : Document}
    (hdraft : draft.Accepted) (h : decodeField levels draft i d = .ok draft') :
    draft'.Accepted := by
  obtain ⟨hname, hparameters, hreturn, hbody⟩ := hdraft
  unfold decodeField at h
  split at h
  · obtain ⟨name, hdecode, h⟩ := bind_eq_ok.1 h
    cases h
    refine ⟨fun s hs => ?_, hparameters, hreturn, hbody⟩
    cases hs
    exact Signature.wellFormed_of_decode hdecode
  · obtain ⟨isStatic, -, h⟩ := bind_eq_ok.1 h
    cases h
    exact ⟨hname, hparameters, hreturn, hbody⟩
  · obtain ⟨parameters, hdecode, h⟩ := bind_eq_ok.1 h
    cases h
    exact ⟨hname, forall_mem_of_decodeArray TypeName.wellFormed_of_decode hdecode, hreturn, hbody⟩
  · obtain ⟨returnType, hdecode, h⟩ := bind_eq_ok.1 h
    cases h
    refine ⟨hname, hparameters, fun t ht => ?_, hbody⟩
    cases ht
    exact TypeName.wellFormed_of_decode hdecode
  · obtain ⟨body, hdecode, h⟩ := bind_eq_ok.1 h
    cases h
    refine ⟨hname, hparameters, hreturn, fun b hb => ?_⟩
    cases hb
    exact Body.accepted_of_decode hdecode

/-- **A descriptor that was read** has names that can be read and operands that suit their
opcodes. -/
theorem accepted_of_parse {text : String} {d : Descriptor} (h : parse text = .ok d) :
    d.Accepted := by
  have hstart : ({} : Draft).Accepted := by
    refine ⟨fun s hs => ?_, fun t ht => ?_, fun t ht => ?_, fun b hb => ?_⟩
    · cases hs
    · cases ht
    · cases ht
    · cases hb
  obtain ⟨document, h⟩ := exists_of_decodeSource h
  obtain ⟨draft, hdraft, h⟩ := bind_eq_ok.1 h
  obtain ⟨name, hname, h⟩ := bind_eq_ok.1 h
  obtain ⟨isStatic, -, h⟩ := bind_eq_ok.1 h
  obtain ⟨returnType, hreturn, h⟩ := bind_eq_ok.1 h
  obtain ⟨body, hbody, h⟩ := bind_eq_ok.1 h
  have haccepted := decodeRecord_keeps accepted_of_decodeField hstart hdraft
  have hbody := haccepted.body body (require_eq_ok.1 hbody)
  cases h
  exact {
    name := haccepted.name name (require_eq_ok.1 hname)
    parameters := haccepted.parameters
    returnType := haccepted.returnType returnType (require_eq_ok.1 hreturn)
    locals := hbody.locals
    kinds := hbody.kinds }

/-! ## What is read again -/

/-- **The text of a descriptor that was read is accepted** exactly if every floating-point operand
is finite. -/
theorem exists_parse_toText_iff {text : String} {d : Descriptor} (h : parse text = .ok d) :
    (∃ d', parse d.toText = .ok d') ↔
      ∀ o i x, d.body.instructions.get? o = some i → i.operand = .float x →
        x.isFinite = true := by
  have haccepted := accepted_of_parse h
  have hread : (∃ d', parse d.toText = .ok d') ↔
      ∃ t, Body.decodeInstructions 125 ∅
        (Body.instructionMembers d.body.instructions.entries) = .ok t := by
    rw [parse_toText_eq haccepted.toNamesWellFormed]
    constructor
    · rintro ⟨d', hd'⟩
      obtain ⟨t, ht, -⟩ := map_eq_ok.1 (mapError_eq_ok.1 hd')
      exact ⟨t, ht⟩
    · rintro ⟨t, ht⟩
      exact ⟨_, mapError_eq_ok.2 (map_eq_ok.2 ⟨t, ht, rfl⟩)⟩
  have heach : ∀ o i, d.body.instructions.get? o = some i →
      ((∃ i', Instruction.decode 125 i.toDocument = .ok i') ↔
        ∀ x, i.operand = .float x → x.isFinite = true) :=
    fun o i hi => Instruction.exists_decode_toDocument_iff (by omega) (haccepted.kinds o i hi)
  rw [hread, Body.exists_decodeInstructions_iff]
  constructor
  · intro hall o i x hi hx
    exact (heach o i hi).1 (hall (o, i) (Table.get?_eq_some_iff.1 hi)) x hx
  · rintro hall ⟨o, i⟩ hmem
    have hi : d.body.instructions.get? o = some i := Table.get?_eq_some_iff.2 hmem
    exact (heach o i hi).2 fun x hx => hall o i x hi hx

/-- A method that gives positive infinity. -/
def unbounded : Descriptor where
  name := ⟨.named "Limits" [], "Max", [], []⟩
  isStatic := true
  parameters := []
  returnType := .named "System.Double" []
  body := {
    maxStack := 0
    locals := []
    instructions := .ofList [
      (0, ⟨.ldcR8, .float (Float.ofBits 0x7ff0000000000000), some 9⟩), (9, ⟨.ret, .none, none⟩)] }

/-- The method is accepted when its operand is given as a string, but its own text is refused. -/
theorem not_exists_parse_toText_unbounded : ¬∃ d, parse unbounded.toText = .ok d := by
  have hread : parse ("\x7b\"name\": \"Limits::Max()\", \"isStatic\": true, " ++
      "\"returnType\": \"System.Double\", \"body\": \x7b\"instructions\": \x7b" ++
      "\"0\": \x7b\"code\": \"ldc.r8\", \"operand\": \"inf\", \"nextOffset\": 9\x7d, " ++
      "\"9\": \x7b\"code\": \"ret\"\x7d\x7d\x7d\x7d") = .ok unbounded := by decide +kernel
  intro haccepted
  have hfinite := (exists_parse_toText_iff hread).1 haccepted 0
    ⟨.ldcR8, .float (Float.ofBits 0x7ff0000000000000), some 9⟩ _ rfl rfl
  revert hfinite
  decide +kernel

end Descriptor

end Hotswap
