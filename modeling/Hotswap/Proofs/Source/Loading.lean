import Hotswap.Proofs.Descriptor.Wire
import Hotswap.Proofs.Manifest
import Hotswap.Source
import Mathlib

/-!
# Loading a patch set

Loading goes through the entries of a manifest, reads the descriptor of each and adds it to the
catalogue. This is about sources whose files do not change while they are loaded: fetching is a
function of the name.

* `read_eq_ok_iff` says when an entry can be read. One that is listed with the key of its content is
  read exactly if the content is a descriptor of its signature, whether or not keys are verified
  (`read_eq_ok_iff_of_contentKey`).
* `exists_loadEntries_iff` and `get?_of_loadEntries` are the run of the loop: it succeeds exactly if
  every entry can be read and no two have one text, and then the catalogue has what was read and
  nothing else. `exists_load_iff` and `get?_of_load` say so of the whole source.
* `not_descriptor_of_manifest`: no file is both a manifest and a descriptor.
-/

namespace Hotswap

/-! ## Content keys -/

/-- A hexadecimal digit may stand in a key. -/
theorem isKeyChar_hexDigit : ∀ n < 16, isKeyChar (Text.hexDigit n) = true := by decide

/-- The name of the manifest has a letter that is no hexadecimal digit. -/
theorem hexDigit_ne_t : ∀ n < 16, Text.hexDigit n ≠ 't' := by decide

/-- A content key is made of hexadecimal digits. -/
theorem exists_hexDigit_of_mem_contentKey {bytes : ByteArray} {c : Char}
    (h : c ∈ (contentKey bytes).toList) : ∃ n < 16, c = Text.hexDigit n := by
  rw [contentKey, Text.hexBytes, String.toList_ofList, List.mem_flatMap] at h
  obtain ⟨b, -, hc⟩ := h
  have hb := b.toNat_lt
  rcases List.mem_pair.1 hc with rfl | rfl
  · exact ⟨b.toNat / 16, by omega, rfl⟩
  · exact ⟨b.toNat % 16, by omega, rfl⟩

/-- A content key is not empty. -/
theorem contentKey_isEmpty (bytes : ByteArray) : (contentKey bytes).isEmpty = false := by
  simp [contentKey, Text.hexBytes, Digest.sha256, Digest.State.bytes, Digest.bigEndian]

/-- A text is equal to itself, whatever the case of its letters. -/
theorem equalIgnoringCase_self (s : String) : equalIgnoringCase s s = true := by
  unfold equalIgnoringCase
  exact beq_self_eq_true _

/-- Different keys have different files. -/
theorem descriptorFile_inj {key key' : String} :
    descriptorFile key = descriptorFile key' ↔ key = key' :=
  String.append_left_inj ".json"

/-- The content key that a descriptor is published under. -/
def Descriptor.key (d : Descriptor) : String := contentKey d.toText.toUTF8

/-- The file of a descriptor is not the manifest. -/
theorem descriptorFile_key_ne (d : Descriptor) : descriptorFile d.key ≠ defaultManifest := by
  intro h
  have hkey : d.key = "catalogue" := descriptorFile_inj.1 (h.trans (by decide +kernel))
  have hmem : 't' ∈ d.key.toList := by
    rw [hkey]
    decide +kernel
  obtain ⟨n, hn, ht⟩ := exists_hexDigit_of_mem_contentKey hmem
  exact hexDigit_ne_t n hn ht.symm

/-! ## Descriptors that can be published -/

namespace Descriptor

/-- A descriptor that its text stands for: its names are parsed, its operands are of the kinds that
their opcodes take, and no operand is a floating-point number. -/
structure Publishable (d : Descriptor) : Prop where
  /-- The names are parsed. -/
  names : d.NamesParsed
  /-- The operands suit their opcodes. -/
  kinds : ∀ o i, d.body.instructions.get? o = some i → i.operand.kind = i.opcode.operandKind
  /-- There are no floating-point operands. -/
  noFloat : ∀ o i, d.body.instructions.get? o = some i → ∀ x, i.operand ≠ .float x

variable {d : Descriptor}

/-- The name of such a descriptor is well formed. -/
theorem Publishable.wellFormed (h : d.Publishable) : d.name.WellFormed := h.names.wellFormed.name

/-- A descriptor that can be published is read back from its file. -/
theorem Publishable.parseBytes_eq (h : d.Publishable) : parseBytes d.toText.toUTF8 = .ok d := by
  have hread : ∀ e ∈ d.body.instructions.entries,
      Instruction.decode 125 e.2.toDocument = .ok e.2 := by
    intro e he
    have hheld : d.body.instructions.get? e.1 = some e.2 := Table.get?_eq_some_iff.2 he
    rw [Instruction.decode_toDocument e.2 (by decide),
      Operand.decode_toDocument (h.kinds _ _ hheld).symm (h.noFloat _ _ hheld)]
    rfl
  have hparse : parseBytes d.toText.toUTF8 = parse d.toText := Document.decodeBytes_toUTF8 _ _
  rw [hparse, parse_toText_eq h.names.wellFormed, Body.decodeInstructions_entries rfl hread]
  rfl

/-- The method with operands at the ends of their ranges can be published. -/
theorem publishable_escapes : escapes.Publishable := by
  have hnames : escapes.NamesParsed := {
    name := ⟨"Log::Write(System.UInt16)", by cbv⟩
    parameters := List.forall_mem_singleton.2 ⟨"System.UInt16", by cbv⟩
    returnType := ⟨"System.Void", by cbv⟩
    locals := List.forall_mem_singleton.2 ⟨"System.Int64[]", by cbv⟩ }
  have hoperands : ∀ e ∈ escapes.body.instructions.entries,
      e.2.operand.kind = e.2.opcode.operandKind ∧ e.2.operand.kind ≠ .float := by decide
  refine ⟨hnames, fun o i hi => ?_, fun o i hi x hx => ?_⟩
  · exact (hoperands _ (Table.get?_eq_some_iff.1 hi)).1
  · refine (hoperands _ (Table.get?_eq_some_iff.1 hi)).2 ?_
    rw [hx]
    rfl

end Descriptor

/-! ## One entry -/

variable {fetch : String → Except Error ByteArray} {options : LoadOptions}

namespace ManifestEntry

/-- Reads the descriptor of an entry. -/
def read (fetch : String → Except Error ByteArray) (options : LoadOptions) (e : ManifestEntry) :
    Except Error Descriptor := do
  let file ← e.file options.manifestName
  let bytes ← fetch file
  e.descriptor options.verifyContentKeys file bytes

variable {e : ManifestEntry} {d : Descriptor} {bytes : ByteArray}

/-- Content is verified against the key that it has, written in either case. -/
theorem verifyContentKey_eq_ok_iff {key : String} {u : Unit} :
    verifyContentKey key bytes = .ok u ↔ equalIgnoringCase (contentKey bytes) key = true := by
  unfold verifyContentKey
  by_cases hsame : equalIgnoringCase (contentKey bytes) key = true
  · simp [hsame]
  · simp [hsame]

/-- Bytes are the descriptor of an entry exactly if they have its key, where that is asked for, and
are read as a descriptor of its signature. -/
theorem descriptor_eq_ok_iff {verify : Bool} {file : String} :
    e.descriptor verify file bytes = .ok d ↔
      (verify = true → equalIgnoringCase (contentKey bytes) e.key = true) ∧
        Descriptor.parseBytes bytes = .ok d ∧ d.name = e.signature := by
  have hnamed : ∀ {fault : Error} {d' : Descriptor},
      (if d'.name = e.signature then pure d' else .error fault : Except Error Descriptor) = .ok d ↔
        d' = d ∧ d.name = e.signature := by
    intro fault d'
    by_cases hname : d'.name = e.signature
    · simp only [hname, if_true, pure, Except.pure, Except.ok.injEq]
      constructor
      · rintro rfl
        exact ⟨rfl, hname⟩
      · exact And.left
    · simp only [hname, if_false]
      constructor
      · intro h
        cases h
      · rintro ⟨rfl, h⟩
        exact absurd h hname
  unfold descriptor
  cases verify with
  | false => simp [bind_eq_ok, mapError_eq_ok, hnamed]
  | true => simp [bind_eq_ok, mapError_eq_ok, hnamed, verifyContentKey_eq_ok_iff]

/-- **An entry can be read** exactly if its key is a plain name and the file of that name has a
descriptor of the signature listed, with the key of its content if keys are verified. -/
theorem read_eq_ok_iff :
    e.read fetch options = .ok d ↔
      e.key.isEmpty = false ∧ e.key.toList.all isKeyChar = true ∧
        ∃ bytes, fetch (descriptorFile e.key) = .ok bytes ∧
          (options.verifyContentKeys = true →
            equalIgnoringCase (contentKey bytes) e.key = true) ∧
          Descriptor.parseBytes bytes = .ok d ∧ d.name = e.signature := by
  unfold read file
  by_cases hempty : e.key.isEmpty = true
  · simp [hempty, bind_eq_ok]
  · by_cases hplain : e.key.toList.all isKeyChar = true
    · simp [hempty, hplain, bind_eq_ok, descriptor_eq_ok_iff]
    · simp [hempty, hplain, bind_eq_ok]

/-- An entry with the key of its content can be read exactly if the content is a descriptor of the
signature listed, whether or not keys are verified. -/
theorem read_eq_ok_iff_of_contentKey (e : ManifestEntry) (hkey : e.key = contentKey bytes)
    (hfetch : fetch (descriptorFile e.key) = .ok bytes) :
    e.read fetch options = .ok d ↔ Descriptor.parseBytes bytes = .ok d ∧ d.name = e.signature := by
  have hplain : e.key.toList.all isKeyChar = true := by
    rw [List.all_eq_true]
    intro c hc
    obtain ⟨n, hn, rfl⟩ := exists_hexDigit_of_mem_contentKey (hkey ▸ hc)
    exact isKeyChar_hexDigit n hn
  rw [read_eq_ok_iff, hfetch]
  constructor
  · rintro ⟨-, -, bytes', hbytes, -, hread⟩
    cases hbytes
    exact hread
  · intro hread
    refine ⟨hkey ▸ contentKey_isEmpty bytes, hplain, bytes, rfl, fun _ => ?_, hread⟩
    rw [hkey]
    exact equalIgnoringCase_self _

end ManifestEntry

/-! ## The loop -/

/-- A catalogue takes a descriptor exactly if nothing is filed under its text. -/
theorem Catalogue.insert_eq_ok_iff {c c' : Catalogue} {d : Descriptor} :
    c.insert d = .ok c' ↔
      c.get? d.name.render = none ∧ c' = ⟨c.methods.insert d.name.render d⟩ := by
  have hcontains : c.contains d.name.render = (c.get? d.name.render).isSome := rfl
  unfold insert
  rw [hcontains]
  cases c.get? d.name.render with
  | none => simp [eq_comm]
  | some d' => simp

/-- Among plain results there is nothing to throw. -/
theorem orThrow_except {α : Type} (r : Except Error α) : orThrow r = r := by
  cases r <;> rfl

/-- Adding an entry is reading it and filing what was read under a text that has nothing yet. -/
theorem loadEntry_eq_ok_iff {c c' : Catalogue} {e : ManifestEntry} :
    loadEntry fetch options c e = .ok c' ↔
      ∃ d, e.read fetch options = .ok d ∧ c.get? e.text = none ∧
        c' = ⟨c.methods.insert e.text d⟩ := by
  have hloaded : loadEntry fetch options c e = e.read fetch options >>= c.insert := by
    unfold loadEntry ManifestEntry.read
    simp only [orThrow_except]
    cases e.file options.manifestName with
    | error fault => rfl
    | ok file =>
      show (fetch file >>= _) = ((fetch file >>= _) >>= _)
      cases fetch file <;> rfl
  rw [hloaded, bind_eq_ok]
  refine exists_congr fun d => and_congr_right fun hread => ?_
  obtain ⟨-, -, bytes, -, -, -, hname⟩ := ManifestEntry.read_eq_ok_iff.1 hread
  rw [Catalogue.insert_eq_ok_iff, hname]
  rfl

/-- **The loop succeeds** exactly if every entry can be read, its text is not taken, and no two
entries have one text. -/
theorem exists_loadEntries_iff {es : List ManifestEntry} {c : Catalogue} :
    (∃ c', es.foldlM (loadEntry fetch options) c = .ok c') ↔
      (∀ e ∈ es, (∃ d, e.read fetch options = .ok d) ∧ c.get? e.text = none) ∧
        (es.map ManifestEntry.text).Nodup := by
  induction es generalizing c with
  | nil => exact ⟨fun _ => ⟨by simp, by simp⟩, fun _ => ⟨c, rfl⟩⟩
  | cons e rest ih =>
    -- After the first entry its text is taken, and no other.
    have htaken : ∀ {d : Descriptor} {text : String},
        Catalogue.get? ⟨c.methods.insert e.text d⟩ text = none ↔
          text ≠ e.text ∧ c.get? text = none := by
      intro d text
      by_cases htext : text = e.text
      · subst htext
        simp [Catalogue.get?]
      · simp [Catalogue.get?, Table.get?_insert_of_ne _ _ htext, htext]
    simp only [List.foldlM_cons, bind_eq_ok, List.forall_mem_cons, List.map_cons, List.nodup_cons,
      loadEntry_eq_ok_iff]
    constructor
    · rintro ⟨c', -, ⟨d, hread, hnone, rfl⟩, hrest⟩
      obtain ⟨hrest, hnodup⟩ := ih.1 ⟨c', hrest⟩
      refine ⟨⟨⟨⟨d, hread⟩, hnone⟩, fun e' he' => ?_⟩, fun hmem => ?_, hnodup⟩
      · exact ⟨(hrest e' he').1, (htaken.1 (hrest e' he').2).2⟩
      · obtain ⟨e', he', htext⟩ := List.mem_map.1 hmem
        exact (htaken.1 (hrest e' he').2).1 htext
    · rintro ⟨⟨⟨⟨d, hread⟩, hnone⟩, hrest⟩, hnew, hnodup⟩
      have hrest' : ∀ e' ∈ rest, (∃ d, e'.read fetch options = .ok d) ∧
          Catalogue.get? ⟨c.methods.insert e.text d⟩ e'.text = none := by
        intro e' he'
        refine ⟨(hrest e' he').1, htaken.2 ⟨fun htext => hnew ?_, (hrest e' he').2⟩⟩
        exact List.mem_map.2 ⟨e', he', htext⟩
      obtain ⟨c', hc'⟩ := ih.2 ⟨hrest', hnodup⟩
      exact ⟨c', _, ⟨d, hread, hnone, rfl⟩, hc'⟩

/-- **What the loop leaves**: under the text of an entry what was read for it, and under other texts
what was there. -/
theorem get?_of_loadEntries {es : List ManifestEntry} {c c' : Catalogue}
    (h : es.foldlM (loadEntry fetch options) c = .ok c') (text : String) :
    c'.get? text = ((es.find? (·.text = text)).bind fun e =>
      (e.read fetch options).toOption).or (c.get? text) := by
  induction es generalizing c with
  | nil =>
    cases h
    rfl
  | cons e rest ih =>
    rw [List.foldlM_cons] at h
    obtain ⟨next, hnext, hrest⟩ := bind_eq_ok.1 h
    obtain ⟨d, hread, hnone, rfl⟩ := loadEntry_eq_ok_iff.1 hnext
    rw [ih hrest]
    by_cases htext : e.text = text
    · subst htext
      have hlater : rest.find? (·.text = e.text) = none := by
        rw [List.find?_eq_none]
        intro e' he' hsame
        have htaken := ((exists_loadEntries_iff.1 ⟨c', hrest⟩).1 e' he').2
        rw [of_decide_eq_true hsame] at htaken
        simp [Catalogue.get?] at htaken
      simp [hlater, hread, Catalogue.get?, Except.toOption]
    · have hother : Catalogue.get? ⟨c.methods.insert e.text d⟩ text = c.get? text :=
        Table.get?_insert_of_ne _ _ (Ne.symm htext)
      simp [htext, hother]

/-! ## Whole sources -/

/-- A source is loaded in four steps, each of which has to succeed. -/
theorem load_eq_ok_iff {c : Catalogue} :
    load fetch options = .ok c ↔
      ∃ bytes m es, fetch options.manifestName = .ok bytes ∧ Manifest.parseBytes bytes = .ok m ∧
        m.entries = .ok es ∧ es.foldlM (loadEntry fetch options) ∅ = .ok c := by
  simp only [load, LoadOptions.manifest, orThrow_except, bind_eq_ok, mapError_eq_ok]
  constructor
  · rintro ⟨bytes, hbytes, m, hm, es, hes, hc⟩
    exact ⟨bytes, m, es, hbytes, hm, hes, hc⟩
  · rintro ⟨bytes, m, es, hbytes, hm, hes, hc⟩
    exact ⟨bytes, hbytes, m, hm, es, hes, hc⟩

section

variable {bytes : ByteArray} {m : Manifest} {es : List ManifestEntry}
  (hbytes : fetch options.manifestName = .ok bytes) (hm : Manifest.parseBytes bytes = .ok m)
  (hes : m.entries = .ok es)

include hbytes hm hes

/-- Once the entries are known, only the loop over them is left. -/
theorem load_eq_ok_iff_of_entries {c : Catalogue} :
    load fetch options = .ok c ↔ es.foldlM (loadEntry fetch options) ∅ = .ok c := by
  rw [load_eq_ok_iff]
  constructor
  · rintro ⟨bytes', m', es', hbytes', hm', hes', hc⟩
    rw [hbytes] at hbytes'
    cases hbytes'
    rw [hm] at hm'
    cases hm'
    rw [hes] at hes'
    cases hes'
    exact hc
  · intro hc
    exact ⟨bytes, m, es, hbytes, hm, hes, hc⟩

/-- **A source can be loaded** exactly if every entry of its manifest can be read and no two entries
have one text. -/
theorem exists_load_iff :
    (∃ c, load fetch options = .ok c) ↔
      (∀ e ∈ es, ∃ d, e.read fetch options = .ok d) ∧ (es.map ManifestEntry.text).Nodup := by
  have hempty : ∀ text, (∅ : Catalogue).get? text = none := fun _ => rfl
  simp only [load_eq_ok_iff_of_entries hbytes hm hes, exists_loadEntries_iff, hempty, and_true]

/-- A catalogue that was loaded has what was read for the entries. -/
theorem get?_of_load {c : Catalogue} (h : load fetch options = .ok c) (text : String) :
    c.get? text =
      (es.find? (·.text = text)).bind fun e => (e.read fetch options).toOption := by
  rw [get?_of_loadEntries ((load_eq_ok_iff_of_entries hbytes hm hes).1 h)]
  exact Option.or_none

end

/-! ## Manifests are not descriptors -/

/-- What is decoded from bytes is decoded from the document that is read in them. -/
theorem decode_of_decodeBytes {α : Type} {decode : Document → Document.Decoded α}
    {bytes : ByteArray} {a : α} (h : Document.decodeBytes decode bytes = .ok a) :
    decode (Document.read (Text.decode bytes)).1 = .ok a := by
  unfold Document.decodeBytes Document.decodeChars at h
  dsimp only at h
  split at h
  · cases h
  · rename_i hdecode
    split at h
    · cases h
      exact hdecode
    · cases h

/-- Every line that is decoded holds a string. -/
theorem exists_string_of_decodeLines {t t' : Table String String}
    {members : List (String × Document)} (h : Manifest.decodeLines t members = .ok t') :
    ∀ m ∈ members, ∃ raw, m.2 = .string raw := by
  induction members generalizing t with
  | nil => simp
  | cons m rest ih =>
    obtain ⟨raw, d⟩ := m
    rw [Manifest.decodeLines] at h
    obtain ⟨text, -, h⟩ := bind_eq_ok.1 h
    obtain ⟨key, hkey, h⟩ := bind_eq_ok.1 h
    refine List.forall_mem_cons.2 ⟨?_, ih h⟩
    unfold Document.decodeString at hkey
    split at hkey
    · exact ⟨_, rfl⟩
    · cases hkey

/-- A string does not say whether a method has a receiver. -/
theorem Descriptor.isStatic_of_decodeField {levels i : Nat} {draft draft' : Draft} {raw : String}
    (h : decodeField levels draft i (.string raw) = .ok draft') :
    draft'.isStatic = draft.isStatic := by
  unfold decodeField at h
  split at h
  · obtain ⟨name, -, h⟩ := bind_eq_ok.1 h
    cases h
    rfl
  · obtain ⟨isStatic, hstatic, -⟩ := bind_eq_ok.1 h
    cases hstatic
  · obtain ⟨parameters, -, h⟩ := bind_eq_ok.1 h
    cases h
    rfl
  · obtain ⟨returnType, -, h⟩ := bind_eq_ok.1 h
    cases h
    rfl
  · obtain ⟨body, -, h⟩ := bind_eq_ok.1 h
    cases h
    rfl

/-- **No file is both a manifest and a descriptor**: all that a manifest holds are strings. -/
theorem not_descriptor_of_manifest {bytes : ByteArray} {m : Manifest}
    (hm : Manifest.parseBytes bytes = .ok m) (d : Descriptor) :
    Descriptor.parseBytes bytes ≠ .ok d := by
  intro hd
  have hm := decode_of_decodeBytes hm
  have hd := decode_of_decodeBytes hd
  unfold Manifest.decode at hm
  split at hm
  · rename_i members hobject
    rw [hobject] at hd
    obtain ⟨table, hlines, -⟩ := map_eq_ok.1 hm
    obtain ⟨draft, hdraft, hd⟩ := bind_eq_ok.1 hd
    have hstrings := exists_string_of_decodeLines hlines
    have hmissing : draft.isStatic = none := by
      refine Document.decodeMembers_keeps (P := fun draft => draft.isStatic = none)
        (fun m hm draft draft' i hnone hstep => ?_) rfl hdraft
      obtain ⟨raw, hraw⟩ := hstrings m hm
      rw [hraw] at hstep
      rw [Descriptor.isStatic_of_decodeField hstep, hnone]
    obtain ⟨name, -, hd⟩ := bind_eq_ok.1 hd
    obtain ⟨isStatic, hstatic, -⟩ := bind_eq_ok.1 hd
    rw [hmissing] at hstatic
    cases hstatic
  · cases hm

end Hotswap
