import Hotswap.Proofs.Source.Loading
import Mathlib

/-!
# Publishing to a shelf

Descriptors that are published one after another to an empty shelf are loaded from it again.

* `Shelf.Holds` is what a shelf has after descriptors have been published: the manifest lists for
  each signature the key of the last descriptor of that name, and the file of every key is there.
  `holds_publish` is one publication and `holds_publishAll` any number of them.
* `load_publishAll`: after at least one publication the shelf can be loaded, with or without
  verifying keys, and the catalogue has the last descriptor of each name and no others. The shelf
  has no manifest before the first publication, so it cannot be loaded then
  (`not_load_publishAll_nil`).
-/

namespace Hotswap

namespace Shelf

/-- An empty shelf after descriptors have been published to it in order. -/
def publishAll (ds : List Descriptor) : Shelf := ds.foldl (fun s d => (s.publish d).2) {}

/-- The last of several descriptors with a text for its name. -/
def last? (ds : List Descriptor) (text : String) : Option Descriptor :=
  ds.reverse.find? (·.name.render = text)

/-- Different texts of descriptors have different keys. -/
def KeysDiffer (ds : List Descriptor) : Prop :=
  ∀ d ∈ ds, ∀ d' ∈ ds, d.key = d'.key → d.toText = d'.toText

/-- What a shelf has after descriptors have been published. -/
structure Holds (s : Shelf) (ds : List Descriptor) : Prop where
  /-- The manifest lists the key of the last descriptor of each name. -/
  lines : ∀ text, s.manifest.lines.get? text = (last? ds text).map Descriptor.key
  /-- The file of every descriptor is there. -/
  files : ∀ d ∈ ds, s.files.get? (descriptorFile d.key) = some d.toText.toUTF8
  /-- The manifest is there as soon as there is a line in it. -/
  manifest : ds ≠ [] → s.files.get? defaultManifest = some s.manifest.toText.toUTF8

/-! ## Publishing -/

/-- One more descriptor is the last of its name, and of no other. -/
theorem last?_append_singleton (ds : List Descriptor) (d : Descriptor) (text : String) :
    last? (ds ++ [d]) text = if d.name.render = text then some d else last? ds text := by
  rw [last?, List.reverse_append, List.reverse_singleton, List.singleton_append, List.find?_cons]
  by_cases htext : d.name.render = text
  · simp [htext]
  · simp [htext, last?]

/-- Publishing adds a file and a line of the manifest. -/
theorem snd_publish (s : Shelf) (d : Descriptor) :
    (s.publish d).2 = {
      files := (s.files.insert (descriptorFile d.key) d.toText.toUTF8).insert defaultManifest
        (s.manifest.insert d.name d.key).toText.toUTF8
      manifest := s.manifest.insert d.name d.key } := rfl

/-- **One publication.** -/
theorem holds_publish {s : Shelf} {ds : List Descriptor} {d : Descriptor} (h : s.Holds ds)
    (hkeys : KeysDiffer (ds ++ [d])) : (s.publish d).2.Holds (ds ++ [d]) where
  lines := by
    intro text
    rw [last?_append_singleton, snd_publish, Manifest.insert]
    by_cases htext : d.name.render = text
    · rw [if_pos htext, ← htext, Table.get?_insert_self, Option.map_some]
    · rw [if_neg htext, Table.get?_insert_of_ne _ _ (Ne.symm htext), h.lines text]
  files := by
    intro d' hd'
    rw [snd_publish, Table.get?_insert_of_ne _ _ (descriptorFile_key_ne d')]
    by_cases hkey : d'.key = d.key
    · rw [hkey, Table.get?_insert_self, hkeys d' hd' d (by simp) hkey]
    · have hmem : d' ∈ ds := by
        rcases List.mem_append.1 hd' with hmem | hmem
        · exact hmem
        · exact absurd (congrArg Descriptor.key (List.mem_singleton.1 hmem)) hkey
      rw [Table.get?_insert_of_ne _ _ fun hfile => hkey (descriptorFile_inj.1 hfile)]
      exact h.files d' hmem
  manifest := by
    intro _
    rw [snd_publish, Table.get?_insert_self]

/-- **Any number of publications.** -/
theorem holds_publishAll {ds : List Descriptor} (hkeys : KeysDiffer ds) :
    (publishAll ds).Holds ds := by
  induction ds using List.reverseRecOn with
  | nil => exact ⟨fun _ => rfl, by simp, fun hne => absurd rfl hne⟩
  | append_singleton ds d ih =>
    rw [publishAll, List.foldl_append]
    refine holds_publish (ih fun d hd d' hd' => ?_) hkeys
    exact hkeys d (List.mem_append_left _ hd) d' (List.mem_append_left _ hd')

/-! ## Loading -/

section

variable {s : Shelf} {ds : List Descriptor} {es : List ManifestEntry}

/-- The last descriptor of a name is one of them. -/
theorem last?_eq_some {text : String} {d : Descriptor} (h : last? ds text = some d) :
    d ∈ ds ∧ d.name.render = text := by
  refine ⟨List.mem_reverse.1 (List.mem_of_find?_eq_some h), ?_⟩
  simpa using List.find?_some h

/-- Each line of the manifest has the text and the key of the last descriptor of a name. -/
theorem Holds.exists_of_line (h : s.Holds ds) (hds : ∀ d ∈ ds, d.Publishable)
    {line : String × String} (hline : line ∈ s.manifest.lines.entries) :
    ∃ d ∈ ds, last? ds line.1 = some d ∧
      Manifest.entryOf line = .ok ⟨d.name, d.key, false⟩ ∧ d.name.render = line.1 := by
  have hheld : s.manifest.lines.get? line.1 = some line.2 := Table.get?_eq_some_iff.2 hline
  rw [h.lines] at hheld
  obtain ⟨d, hlast, hkey⟩ := Option.map_eq_some_iff.1 hheld
  obtain ⟨hmem, hname⟩ := last?_eq_some hlast
  have hentry := Manifest.entryOf_render (hds d hmem).wellFormed d.key
  rw [hname, hkey] at hentry
  exact ⟨d, hmem, hlast, hkey ▸ hentry, hname⟩

/-- Each entry of the manifest is read as the last descriptor of its name. -/
theorem Holds.read_eq (h : s.Holds ds) (hds : ∀ d ∈ ds, d.Publishable)
    (hes : s.manifest.entries = .ok es) {e : ManifestEntry} (he : e ∈ es) (options : LoadOptions) :
    ∃ d, last? ds e.text = some d ∧ e.read s.fetch options = .ok d := by
  obtain ⟨line, hline, hentry⟩ := (Manifest.mem_entriesOf hes).1 he
  obtain ⟨d, hmem, hlast, hentry', hname⟩ := h.exists_of_line hds hline
  rw [hentry] at hentry'
  cases hentry'
  have hfetch : s.fetch (descriptorFile d.key) = .ok d.toText.toUTF8 := by
    rw [fetch, h.files d hmem]
  refine ⟨d, ?_, ?_⟩
  · rw [ManifestEntry.text, hname]
    exact hlast
  · exact (ManifestEntry.read_eq_ok_iff_of_contentKey ⟨d.name, d.key, false⟩ rfl hfetch).2
      ⟨(hds d hmem).parseBytes_eq, rfl⟩

/-- The manifest can be read, and no two entries have one text. -/
theorem Holds.exists_entries (h : s.Holds ds) (hds : ∀ d ∈ ds, d.Publishable) :
    ∃ es, s.manifest.entries = .ok es ∧ (es.map ManifestEntry.text).Nodup := by
  obtain ⟨es, hes⟩ : ∃ es, s.manifest.entries = .ok es := by
    refine Manifest.exists_entriesOf fun line hline => ?_
    obtain ⟨d, -, -, hentry, -⟩ := h.exists_of_line hds hline
    exact ⟨_, hentry⟩
  have htext : ∀ line ∈ s.manifest.lines.entries, ∀ e, Manifest.entryOf line = .ok e →
      e.text = line.1 := by
    intro line hline e he
    obtain ⟨d, -, -, hentry, hname⟩ := h.exists_of_line hds hline
    rw [he] at hentry
    cases hentry
    exact hname
  refine ⟨es, hes, ?_⟩
  rw [Manifest.map_text_entriesOf hes htext]
  exact Table.nodup_keys _

/-- Each name of a descriptor is that of an entry. -/
theorem Holds.exists_entry (h : s.Holds ds) (hds : ∀ d ∈ ds, d.Publishable)
    (hes : s.manifest.entries = .ok es) {d : Descriptor} {text : String}
    (hlast : last? ds text = some d) : ∃ e ∈ es, e.text = text := by
  have hheld : s.manifest.lines.get? text = some d.key := by
    rw [h.lines, hlast]
    rfl
  have hline := Table.get?_eq_some_iff.1 hheld
  obtain ⟨d', -, -, hentry, hname⟩ := h.exists_of_line hds hline
  exact ⟨_, (Manifest.mem_entriesOf hes).2 ⟨_, hline, hentry⟩, hname⟩

/-- A shelf with at least one descriptor can be loaded, and the catalogue has the last descriptor of
each name. -/
theorem Holds.exists_load (h : s.Holds ds) (hds : ∀ d ∈ ds, d.Publishable) (hne : ds ≠ [])
    (verify : Bool) :
    ∃ c, load s.fetch { verifyContentKeys := verify } = .ok c ∧
      ∀ text, c.get? text = last? ds text := by
  have hbytes : s.fetch ({ verifyContentKeys := verify } : LoadOptions).manifestName =
      .ok s.manifest.toText.toUTF8 := by
    rw [fetch, h.manifest hne]
  have hm := Manifest.parseBytes_toText s.manifest
  obtain ⟨es, hes, hnodup⟩ := h.exists_entries hds
  have hread := fun e he => h.read_eq hds hes (e := e) he { verifyContentKeys := verify }
  have hall : ∀ e ∈ es, ∃ d, e.read s.fetch { verifyContentKeys := verify } = .ok d := by
    intro e he
    obtain ⟨d, -, hd⟩ := hread e he
    exact ⟨d, hd⟩
  obtain ⟨c, hc⟩ := (exists_load_iff hbytes hm hes).2 ⟨hall, hnodup⟩
  refine ⟨c, hc, fun text => ?_⟩
  rw [get?_of_load hbytes hm hes hc]
  cases hfind : es.find? (·.text = text) with
  | none =>
    cases hlast : last? ds text with
    | none => rfl
    | some d =>
      obtain ⟨e, he, htext⟩ := h.exists_entry hds hes hlast
      exact absurd (by simpa using htext) (List.find?_eq_none.1 hfind e he)
  | some e =>
    have htext : e.text = text := by simpa using List.find?_some hfind
    obtain ⟨d, hlast, hd⟩ := hread e (List.mem_of_find?_eq_some hfind)
    rw [← htext, hlast, Option.bind_some, hd]
    rfl

end

/-- Among descriptors that can be published, the text of a name stands for the name. -/
theorem last?_render {ds : List Descriptor} (hds : ∀ d ∈ ds, d.Publishable) {s : Signature}
    (hs : s.WellFormed) : last? ds s.render = ds.reverse.find? (·.name = s) := by
  refine List.find?_congr fun d hd => ?_
  have hd := (hds d (List.mem_reverse.1 hd)).wellFormed
  rw [decide_eq_decide]
  exact ⟨Signature.render_inj hd hs, congrArg Signature.render⟩

/-- **Publishing and loading.** After at least one publication the shelf can be loaded, whether or
not keys are verified, and the catalogue has the last descriptor of each name and no others. -/
theorem load_publishAll {ds : List Descriptor} (hne : ds ≠ []) (hds : ∀ d ∈ ds, d.Publishable)
    (hkeys : KeysDiffer ds) (verify : Bool) :
    ∃ c, load (publishAll ds).fetch { verifyContentKeys := verify } = .ok c ∧
      (∀ text, c.get? text = ds.reverse.find? (·.name.render = text)) ∧
      ∀ s, (∃ text, Signature.parse text = .ok s) → c.lookup s = ds.reverse.find? (·.name = s) := by
  obtain ⟨c, hc, htexts⟩ := (holds_publishAll hkeys).exists_load hds hne verify
  refine ⟨c, hc, htexts, ?_⟩
  rintro s ⟨text, hs⟩
  rw [Catalogue.lookup, htexts, last?_render hds (Signature.wellFormed_of_parse hs)]

/-- A method that does nothing, with a given depth of its stack. -/
def idle (depth : UInt32) : Descriptor where
  name := ⟨.named "A" [], "B", [], []⟩
  isStatic := true
  parameters := []
  returnType := .named "A" []
  body := {
    maxStack := depth
    locals := []
    instructions := .ofList [(0, ⟨.ret, .none, none⟩)] }

/-- The method can be published, whatever the depth is. -/
theorem publishable_idle (depth : UInt32) : (idle depth).Publishable := by
  have hsignature : Signature.parse "A::B()" = .ok ⟨.named "A" [], "B", [], []⟩ := by
    decide +kernel
  have htype : TypeName.parse "A" = .ok (.named "A" []) := by decide +kernel
  have hnames : (idle depth).NamesParsed :=
    { name := ⟨_, hsignature⟩, parameters := nofun, returnType := ⟨_, htype⟩, locals := nofun }
  have hoperands : ∀ e ∈ (idle depth).body.instructions.entries,
      e.2.operand.kind = e.2.opcode.operandKind ∧ ∀ x, e.2.operand ≠ .float x :=
    List.forall_mem_singleton.2 ⟨rfl, nofun⟩
  exact ⟨hnames, fun o i hi => (hoperands _ (Table.get?_eq_some_iff.1 hi)).1,
    fun o i hi => (hoperands _ (Table.get?_eq_some_iff.1 hi)).2⟩

/-- Two versions of the method have different keys. -/
theorem key_idle_ne : (idle 1).key ≠ (idle 2).key := by decide +kernel

/-- The second version of a method takes the place of the first one. -/
theorem load_publishAll_versions :
    ∃ c, load (publishAll [idle 1, idle 2]).fetch { verifyContentKeys := true } = .ok c ∧
      c.get? "A::B()" = some (idle 2) ∧ c.get? "A::C()" = none := by
  have hpublishable : ∀ d ∈ [idle 1, idle 2], d.Publishable :=
    List.forall_mem_cons.2 ⟨publishable_idle 1, List.forall_mem_singleton.2 (publishable_idle 2)⟩
  have hkeys : KeysDiffer [idle 1, idle 2] := by
    unfold KeysDiffer
    simp only [List.forall_mem_cons]
    exact ⟨⟨by simp, fun h => absurd h key_idle_ne, nofun⟩,
      ⟨fun h => absurd h.symm key_idle_ne, by simp, nofun⟩, nofun⟩
  obtain ⟨c, hc, htexts, -⟩ := load_publishAll (by simp) hpublishable hkeys true
  refine ⟨c, hc, ?_, ?_⟩
  · rw [htexts]
    decide +kernel
  · rw [htexts]
    decide +kernel

/-- A shelf to which nothing was published cannot be loaded. -/
theorem not_load_publishAll_nil : ¬∃ c, load (publishAll []).fetch {} = .ok c := by
  rintro ⟨c, hc⟩
  cases hc

end Shelf

end Hotswap
