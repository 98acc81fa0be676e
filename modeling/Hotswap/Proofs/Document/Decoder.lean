import Hotswap.Proofs.Document.Reader
import Hotswap.Proofs.Result

/-!
# Decoding what is written

The documents that this library writes decode to what they were written for: strings, natural
numbers, lists, and records whose fields are written under their first names. A record is decoded
one member after another (`decodeMembers_cons`).

Whatever document a record is decoded from, a property of the draft that every field keeps holds of
the record (`decodeRecord_keeps`).
-/

namespace Hotswap.Document

variable {α δ : Type}

/-! ## Leaves -/

/-- A string is read back. -/
@[simp]
theorem decodeString_ofString (s : String) : decodeString (ofString s) = .ok s := by
  rw [ofString, decodeString, textOf?_encode]
  rfl

/-- The numeral of a natural number stands for an integer if 63 bits hold it. -/
theorem numberOf?_ofNat {n : Nat} (h : n < UInt64.size) :
    (numberOf? (Nat.repr n)).bind (·.toInt64?) =
      if n < int64Bound then some (Int64.ofInt n) else none := by
  rw [numberOf?_repr h]
  show (if (UInt64.ofNat n).toNat < int64Bound then some (UInt64.ofNat n).toInt64 else none) = _
  rw [UInt64.toNat_ofNat_of_lt' h]
  rfl

/-- A natural number below the bound is read back. -/
theorem decodeBelow_ofNat {bound n : Nat} (hbound : bound ≤ UInt64.size) (h : n < bound) :
    decodeBelow bound (ofNat n) = .ok n := by
  have hfits : n < UInt64.size := Nat.lt_of_lt_of_le h hbound
  have hbelow : (Number.nat (UInt64.ofNat n)).below? bound = some n := by
    rw [Number.below?, UInt64.toNat_ofNat_of_lt' hfits, if_pos h]
  rw [ofNat, decodeBelow, numberOf?_repr hfits]
  show require ((Number.nat (UInt64.ofNat n)).below? bound) = _
  rw [hbelow]
  rfl

/-- So is a number of 32 bits. -/
@[simp]
theorem decodeUInt32_ofNat (n : UInt32) : decodeUInt32 (ofNat n.toNat) = .ok n := by
  rw [decodeUInt32, decodeBelow_ofNat (by decide) n.toNat_lt]
  show Except.ok (UInt32.ofNat n.toNat) = _
  rw [UInt32.ofNat_toNat]

/-- A list is decoded item by item. -/
theorem decodeItems_map {decode : Document → Decoded α} {write : α → Document} {as : List α}
    (h : ∀ a ∈ as, decode (write a) = .ok a) : decodeItems decode (as.map write) = .ok as := by
  induction as with
  | nil => rfl
  | cons a rest ih =>
    obtain ⟨ha, hrest⟩ := List.forall_mem_cons.1 h
    rw [List.map_cons, decodeItems, ha, ih hrest]
    rfl

/-- What is there can be required. -/
theorem require_some (a : α) : require (some a) = .ok a := rfl

/-! ## Records -/

/-- A name that stands for a field that has not been met is decoded as that field. -/
theorem decodeMembers_of_textOf? {fields : List Field} {step : δ → Nat → Document → Decoded δ}
    {given : List Nat} {draft : δ} {raw name : String} {d : Document} {i : Nat}
    {rest : List (String × Document)} (hraw : textOf? raw = some name)
    (hi : fieldIndex? fields name = some i) (hgiven : given.contains i = false) :
    decodeMembers fields step given draft ((raw, d) :: rest) =
      step draft i d >>= fun draft => decodeMembers fields step (i :: given) draft rest := by
  rw [decodeMembers, hraw, require_some, ok_bind, hi]
  dsimp only
  rw [hgiven]
  rfl

/-- The name of a field that is written and has not been met is decoded as that field. -/
theorem decodeMembers_cons {fields : List Field} {step : δ → Nat → Document → Decoded δ}
    {given : List Nat} {draft : δ} {name : String} {d : Document} {i : Nat}
    {rest : List (String × Document)} (hi : fieldIndex? fields name = some i)
    (hgiven : given.contains i = false) :
    decodeMembers fields step given draft
        ((String.ofList (encodeText name.toList), d) :: rest) =
      step draft i d >>= fun draft => decodeMembers fields step (i :: given) draft rest :=
  decodeMembers_of_textOf? (textOf?_encode name) hi hgiven

/-! ## What decoding keeps -/

/-- Only what is there can be. -/
theorem require_eq_ok {o : Option α} {a : α} : require o = .ok a ↔ o = some a := by
  cases o with
  | none => exact ⟨nofun, nofun⟩
  | some b =>
    show Except.ok b = .ok a ↔ _
    rw [Except.ok.injEq, Option.some.injEq]

section keeps

variable {P : δ → Prop} {step : δ → Nat → Document → Decoded δ} {draft draft' : δ}

/-- What every field keeps holds after all members. -/
theorem decodeMembers_keeps {fields : List Field} {given : List Nat}
    {members : List (String × Document)}
    (hstep : ∀ m ∈ members, ∀ {draft draft' i}, P draft → step draft i m.2 = .ok draft' → P draft')
    (hdraft : P draft) (h : decodeMembers fields step given draft members = .ok draft') :
    P draft' := by
  induction members generalizing given draft with
  | nil =>
    cases h
    exact hdraft
  | cons m rest ih =>
    obtain ⟨raw, d⟩ := m
    obtain ⟨hfirst, hrest⟩ := List.forall_mem_cons.1 hstep
    rw [decodeMembers] at h
    obtain ⟨name, -, h⟩ := bind_eq_ok.1 h
    split at h
    · split at h
      · cases h
      · obtain ⟨next, hnext, h⟩ := bind_eq_ok.1 h
        exact ih hrest (hfirst hdraft hnext) h
    · split at h
      · exact ih hrest hdraft h
      · cases h

/-- It holds after all items as well. -/
theorem decodeSequence_keeps
    (hstep : ∀ {draft draft' i d}, P draft → step draft i d = .ok draft' → P draft')
    {count i : Nat} {items : List Document} (hdraft : P draft)
    (h : decodeSequence count step i draft items = .ok draft') : P draft' := by
  induction items generalizing i draft with
  | nil =>
    cases h
    exact hdraft
  | cons d rest ih =>
    rw [decodeSequence] at h
    split at h
    · obtain ⟨next, hnext, h⟩ := bind_eq_ok.1 h
      exact ih (hstep hdraft hnext) h
    · cases h

/-- **A property that every field keeps holds of the decoded record.** -/
theorem decodeRecord_keeps
    (hstep : ∀ {draft draft' i d}, P draft → step draft i d = .ok draft' → P draft')
    {fields : List Field} {d : Document} (hdraft : P draft)
    (h : decodeRecord fields step draft d = .ok draft') : P draft' := by
  unfold decodeRecord at h
  split at h
  · exact decodeMembers_keeps (fun _ _ => hstep) hdraft h
  · exact decodeSequence_keeps hstep hdraft h
  · cases h

end keeps

/-- Every item of a decoded array was decoded from some document. -/
theorem forall_mem_of_decodeArray {decode : Document → Decoded α} {P : α → Prop}
    (hdecode : ∀ {d a}, decode d = .ok a → P a) {d : Document} {as : List α}
    (h : decodeArray decode d = .ok as) : ∀ a ∈ as, P a := by
  have hitems : ∀ {items as}, decodeItems decode items = .ok as → ∀ a ∈ as, P a := by
    intro items
    induction items with
    | nil =>
      intro as h
      cases h
      exact fun a ha => absurd ha List.not_mem_nil
    | cons d rest ih =>
      intro as h
      rw [decodeItems] at h
      obtain ⟨a, ha, h⟩ := bind_eq_ok.1 h
      obtain ⟨as', has, h⟩ := bind_eq_ok.1 h
      cases h
      exact List.forall_mem_cons.2 ⟨hdecode ha, ih has⟩
  unfold decodeArray at h
  split at h
  · exact hitems h
  · cases h

/-- What is decoded from a text is decoded from a document. -/
theorem exists_of_decodeSource {decode : Document → Decoded α} {text : String} {a : α}
    (h : decodeSource decode text = .ok a) : ∃ d, decode d = .ok a := by
  unfold decodeSource decodeChars at h
  dsimp only at h
  split at h
  · cases h
  · rename_i hdecode
    split at h
    · cases h
      exact ⟨_, hdecode⟩
    · cases h

end Hotswap.Document
