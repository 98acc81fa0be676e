import Hotswap.Proofs.Source.Directory
import Mathlib

/-!
# What loading requires and what it asks for

Loading a source is exact. It succeeds if nothing is wrong with any line of the manifest and not
otherwise, the catalogue then has one method for each line, and no file is asked for but the
manifest and those that its lines name by plain keys.

* `Supplies` says what a line requires of a source, and gives the descriptor that its file has.
  `ManifestEntry.read_eq_ok_iff_supplies`: that is what reading its entry requires.
* `exists_load_iff_supplies` is the condition for the whole source. `size_of_loadEntries` counts the
  methods as the loop adds them.
* `recording` notes the names of the files that are asked for, and `Asks` is what is said of a
  computation that does. `asks_loadEntry` is one entry and `Asks.foldlM` any number of them.
* `load_exact` puts the three together.
-/

namespace Hotswap

/-! ## Lines -/

/-- A key is a plain name: it is made of ASCII letters, digits, `-` and `_`. -/
def IsPlainKey (key : String) : Prop :=
  key ≠ "" ∧ ∀ c ∈ key.toList, c.isAlphanum = true ∨ c = '-' ∨ c = '_'

/-- The loader tests for just that. -/
theorem isPlainKey_iff {key : String} :
    IsPlainKey key ↔ key.isEmpty = false ∧ key.toList.all isKeyChar = true := by
  simp only [IsPlainKey, isKeyChar, List.all_eq_true, Bool.or_eq_true, beq_iff_eq, or_assoc, ne_eq,
    String.isEmpty_eq_false_iff]

/-- The file that an entry asks for is that of its key, which is a plain name. -/
theorem ManifestEntry.file_eq_ok_iff {e : ManifestEntry} {manifestName file : String} :
    e.file manifestName = .ok file ↔ IsPlainKey e.key ∧ file = descriptorFile e.key := by
  rw [isPlainKey_iff, ManifestEntry.file]
  by_cases hempty : e.key.isEmpty = true
  · simp [hempty]
  · by_cases hchars : e.key.toList.all isKeyChar = true
    · simp [hempty, hchars, eq_comm]
    · simp [hempty, hchars]

/-- A source has for a line of a manifest the descriptor of its signature. -/
structure Supplies (fetch : String → Except Error ByteArray) (options : LoadOptions)
    (line : String × String) (s : Signature) (d : Descriptor) : Prop where
  /-- The text is read as the signature. -/
  signature : Signature.parse line.1 = .ok s
  /-- The key is a plain name. -/
  plain : IsPlainKey line.2
  /-- The file of that name has the descriptor, and the digest that the key says if that is to be
  verified. -/
  file : ∃ bytes, fetch (descriptorFile line.2) = .ok bytes ∧
    (options.verifyContentKeys = true → equalIgnoringCase (contentKey bytes) line.2 = true) ∧
    Descriptor.parseBytes bytes = .ok d
  /-- The descriptor is of the signature. -/
  name : d.name = s

section

variable {fetch : String → Except Error ByteArray} {options : LoadOptions}

/-- What a source has for a line is one descriptor. -/
theorem Supplies.unique {line : String × String} {s s' : Signature} {d d' : Descriptor}
    (h : Supplies fetch options line s d) (h' : Supplies fetch options line s' d') :
    s = s' ∧ d = d' := by
  obtain ⟨bytes, hbytes, -, hparse⟩ := h.file
  obtain ⟨bytes', hbytes', -, hparse'⟩ := h'.file
  rw [hbytes] at hbytes'
  cases hbytes'
  rw [hparse] at hparse'
  cases hparse'
  exact ⟨h.name.symm.trans h'.name, rfl⟩

/-- An entry can be read exactly if the source has what its line requires. -/
theorem ManifestEntry.read_eq_ok_iff_supplies {line : String × String} {e : ManifestEntry}
    (h : Manifest.entryOf line = .ok e) {d : Descriptor} :
    e.read fetch options = .ok d ↔ Supplies fetch options line e.signature d := by
  obtain ⟨hsignature, hkey⟩ := Manifest.entryOf_eq_ok h
  rw [read_eq_ok_iff, hkey]
  constructor
  · rintro ⟨hnonempty, hchars, bytes, hbytes, hverify, hparse, hname⟩
    have hplain := isPlainKey_iff.2 ⟨hnonempty, hchars⟩
    exact ⟨hsignature, hplain, ⟨bytes, hbytes, hverify, hparse⟩, hname⟩
  · rintro ⟨-, hplain, ⟨bytes, hbytes, hverify, hparse⟩, hname⟩
    obtain ⟨hnonempty, hchars⟩ := isPlainKey_iff.1 hplain
    exact ⟨hnonempty, hchars, bytes, hbytes, hverify, hparse, hname⟩

/-- Every entry can be read exactly if the source has what each line requires. -/
theorem forall_read_iff_supplies {lines : List (String × String)} {es : List ManifestEntry}
    (h : Manifest.entriesOf lines = .ok es) :
    (∀ e ∈ es, ∃ d, e.read fetch options = .ok d) ↔
      ∀ line ∈ lines, ∃ s d, Supplies fetch options line s d := by
  constructor
  · intro hall line hline
    obtain ⟨e, he, hentry⟩ := Manifest.exists_mem_of_entriesOf h hline
    obtain ⟨d, hread⟩ := hall e he
    exact ⟨e.signature, d, (ManifestEntry.read_eq_ok_iff_supplies hentry).1 hread⟩
  · intro hall e he
    obtain ⟨line, hline, hentry⟩ := (Manifest.mem_entriesOf h).1 he
    obtain ⟨s, d, hsupplies⟩ := hall line hline
    have hsame : s = e.signature := by
      have hparse := hsupplies.signature
      rw [(Manifest.entryOf_eq_ok hentry).1] at hparse
      exact (Except.ok.inj hparse).symm
    exact ⟨d, (ManifestEntry.read_eq_ok_iff_supplies hentry).2 (hsame ▸ hsupplies)⟩

/-- **A source can be loaded** exactly if it has what each line of its manifest requires, and the
lines have different signatures. -/
theorem exists_load_iff_supplies :
    (∃ c, load fetch options = .ok c) ↔
      ∃ bytes m, fetch options.manifestName = .ok bytes ∧ Manifest.parseBytes bytes = .ok m ∧
        (∀ line ∈ m.lines.entries, ∃ s d, Supplies fetch options line s d) ∧
        (m.lines.entries.map fun line => Signature.parse line.1).Nodup := by
  constructor
  · rintro ⟨c, hc⟩
    obtain ⟨bytes, m, es, hbytes, hm, hes, -⟩ := load_eq_ok_iff.1 hc
    obtain ⟨hall, hnodup⟩ := (exists_load_iff hbytes hm hes).1 ⟨c, hc⟩
    exact ⟨bytes, m, hbytes, hm, (forall_read_iff_supplies hes).1 hall,
      (Manifest.nodup_map_parse_iff hes).2 hnodup⟩
  · rintro ⟨bytes, m, hbytes, hm, hall, hnodup⟩
    obtain ⟨es, hes⟩ : ∃ es, m.entries = .ok es := by
      refine Manifest.exists_entriesOf fun line hline => ?_
      obtain ⟨s, d, hsupplies⟩ := hall line hline
      obtain ⟨e, he, -⟩ := Manifest.exists_entryOf_iff.2 hsupplies.signature
      exact ⟨e, he⟩
    exact (exists_load_iff hbytes hm hes).2 ⟨(forall_read_iff_supplies hes).2 hall,
      (Manifest.nodup_map_parse_iff hes).1 hnodup⟩

/-! ## The catalogue -/

/-- Each entry adds one method. -/
theorem size_of_loadEntries {es : List ManifestEntry} {c c' : Catalogue}
    (h : es.foldlM (loadEntry fetch options) c = .ok c') : c'.size = c.size + es.length := by
  induction es generalizing c with
  | nil =>
    cases h
    rfl
  | cons e rest ih =>
    rw [List.foldlM_cons] at h
    obtain ⟨next, hnext, hrest⟩ := bind_eq_ok.1 h
    obtain ⟨d, -, hnone, rfl⟩ := loadEntry_eq_ok_iff.1 hnext
    have hadded : Catalogue.size ⟨c.methods.insert e.text d⟩ = c.size + 1 :=
      Table.size_insert d hnone
    rw [ih hrest, hadded, List.length_cons]
    omega

section

variable {bytes : ByteArray} {m : Manifest} {es : List ManifestEntry} {c : Catalogue}
  (hbytes : fetch options.manifestName = .ok bytes) (hm : Manifest.parseBytes bytes = .ok m)
  (hes : m.entries = .ok es) (hc : load fetch options = .ok c)

include hbytes hm hes hc

/-- A catalogue that was loaded has as many methods as its manifest has lines. -/
theorem size_of_load : c.size = m.lines.size := by
  have hsize := size_of_loadEntries ((load_eq_ok_iff_of_entries hbytes hm hes).1 hc)
  have hlength := congrArg List.length (Manifest.map_parse_entriesOf hes)
  rw [List.length_map, List.length_map] at hlength
  have hempty : (∅ : Catalogue).size = 0 := rfl
  rw [hsize, hempty, Nat.zero_add, ← hlength]
  rfl

/-- The text of an entry is taken by what was read for it. -/
theorem get?_text_of_load {e : ManifestEntry} (he : e ∈ es) {d : Descriptor}
    (hread : e.read fetch options = .ok d) : c.get? e.text = some d := by
  obtain ⟨-, hnodup⟩ := (exists_load_iff hbytes hm hes).1 ⟨c, hc⟩
  have hfind : es.find? (·.text = e.text) = some e := by
    obtain ⟨e', hfind⟩ : ∃ e', es.find? (·.text = e.text) = some e' := by
      rw [← Option.isSome_iff_exists, List.find?_isSome]
      exact ⟨e, he, by simp⟩
    have htext : e'.text = e.text := by simpa using List.find?_some hfind
    rw [hfind, List.inj_on_of_nodup_map hnodup (List.mem_of_find?_eq_some hfind) he htext]
  rw [get?_of_load hbytes hm hes hc, hfind, Option.bind_some, hread]
  rfl

/-- Descriptors are filed under the texts of their names. -/
theorem key_of_load {key : String} {d : Descriptor} (hget : c.get? key = some d) :
    key = d.name.render := by
  rw [get?_of_load hbytes hm hes hc] at hget
  obtain ⟨e, hfind, hread⟩ := Option.bind_eq_some_iff.1 hget
  have htext : e.text = key := by simpa using List.find?_some hfind
  obtain ⟨d', hd'⟩ :=
    ((exists_load_iff hbytes hm hes).1 ⟨c, hc⟩).1 e (List.mem_of_find?_eq_some hfind)
  rw [hd'] at hread
  cases hread
  obtain ⟨-, -, -, -, -, -, hname⟩ := ManifestEntry.read_eq_ok_iff.1 hd'
  rw [← htext, hname]
  rfl

end

end

/-! ## Requests -/

/-- Fetches a file and notes its name. -/
def recording (fetch : String → Except Error ByteArray) (name : String) :
    ExceptT Error (StateM (List String)) ByteArray := do
  modify (· ++ [name])
  orThrow (fetch name)

/-- A computation that gives a result and on the way only asks for files of a kind. -/
def Asks {α : Type} (P : String → Prop) (x : ExceptT Error (StateM (List String)) α)
    (r : Except Error α) : Prop :=
  ∀ log, ∃ names, x log = (r, log ++ names) ∧ ∀ name ∈ names, P name

section

variable {α β : Type} {P : String → Prop} {fetch : String → Except Error ByteArray}

/-- The name is noted, whatever the file is. -/
theorem recording_apply (fetch : String → Except Error ByteArray) (name : String)
    (log : List String) : recording fetch name log = (fetch name, log ++ [name]) := by
  unfold recording
  rw [bind_of_ok (show (modify (· ++ [name]) : ExceptT Error (StateM (List String)) Unit) log =
    (.ok (), log ++ [name]) from rfl), orThrow_apply, orThrow_except]

/-- A result asks for nothing. -/
theorem asks_orThrow (r : Except Error α) : Asks P (orThrow r) (orThrow r) := by
  intro log
  refine ⟨[], ?_, by simp⟩
  rw [orThrow_apply, List.append_nil]

/-- A file of the kind may be asked for. -/
theorem asks_recording {name : String} (h : P name) :
    Asks P (recording fetch name) (fetch name) := by
  intro log
  exact ⟨[name], recording_apply fetch name log, by simpa using h⟩

/-- Two computations one after the other ask for what each of them asks for. -/
theorem Asks.bind {x : ExceptT Error (StateM (List String)) α}
    {f : α → ExceptT Error (StateM (List String)) β} {r : Except Error α}
    {k : α → Except Error β} (hx : Asks P x r) (hf : ∀ a, r = .ok a → Asks P (f a) (k a)) :
    Asks P (x >>= f) (r >>= k) := by
  intro log
  obtain ⟨names, hnames, hP⟩ := hx log
  cases r with
  | error e => exact ⟨names, bind_of_error hnames, hP⟩
  | ok a =>
    obtain ⟨later, hlater, hP'⟩ := hf a rfl (log ++ names)
    refine ⟨names ++ later, ?_, ?_⟩
    · rw [bind_of_ok hnames, hlater, List.append_assoc, ok_bind]
    · intro name hname
      exact (List.mem_append.1 hname).elim (hP name) (hP' name)

/-- What is asked for after a first file. -/
theorem Asks.of_recording {name : String} {f : ByteArray → ExceptT Error (StateM (List String)) β}
    {k : ByteArray → Except Error β}
    (hf : ∀ bytes, fetch name = .ok bytes → Asks P (f bytes) (k bytes)) :
    ∃ names, (recording fetch name >>= f) [] = (fetch name >>= k, name :: names) ∧
      ∀ later ∈ names, P later := by
  have hfirst := recording_apply fetch name []
  cases hbytes : fetch name with
  | error e =>
    rw [hbytes] at hfirst
    exact ⟨[], bind_of_error hfirst, by simp⟩
  | ok bytes =>
    rw [hbytes] at hfirst
    obtain ⟨names, hnames, hP⟩ := hf bytes hbytes [name]
    refine ⟨names, ?_, hP⟩
    rw [bind_of_ok hfirst]
    exact hnames

/-- A loop asks for files of a kind if each round does. -/
theorem Asks.foldlM {f : β → α → ExceptT Error (StateM (List String)) β}
    {k : β → α → Except Error β} {as : List α} (h : ∀ a ∈ as, ∀ b, Asks P (f b a) (k b a)) (b : β) :
    Asks P (as.foldlM f b) (as.foldlM k b) := by
  induction as generalizing b with
  | nil => exact asks_orThrow (.ok b)
  | cons a rest ih =>
    obtain ⟨hfirst, hrest⟩ := List.forall_mem_cons.1 h
    rw [List.foldlM_cons, List.foldlM_cons]
    exact (hfirst b).bind fun b' _ => ih hrest b'

variable {options : LoadOptions}

/-- **One entry** asks for the file of its key, and only if the key is a plain name. -/
theorem asks_loadEntry {e : ManifestEntry} (h : IsPlainKey e.key → P (descriptorFile e.key))
    (c : Catalogue) :
    Asks P (loadEntry (recording fetch) options c e) (loadEntry fetch options c e) := by
  refine (asks_orThrow _).bind fun file hfile => (asks_recording ?_).bind fun bytes _ =>
    (asks_orThrow _).bind fun d _ => asks_orThrow _
  rw [orThrow_except, ManifestEntry.file_eq_ok_iff] at hfile
  obtain ⟨hplain, rfl⟩ := hfile
  exact h hplain

end

/-- A file that a line of a manifest names by a plain key. -/
def Manifest.Names (m : Manifest) (file : String) : Prop :=
  ∃ line ∈ m.lines.entries, IsPlainKey line.2 ∧ file = descriptorFile line.2

/-- **A whole source**: the first request is for the manifest, and the others are for files that the
manifest names. -/
theorem exists_load_recording (fetch : String → Except Error ByteArray) (options : LoadOptions) :
    ∃ files, load (recording fetch) options [] =
        (load fetch options, options.manifestName :: files) ∧
      ∀ file ∈ files, ∃ bytes m, fetch options.manifestName = .ok bytes ∧
        Manifest.parseBytes bytes = .ok m ∧ m.Names file := by
  refine Asks.of_recording fun bytes hbytes => ?_
  refine (asks_orThrow _).bind fun m hm => (asks_orThrow _).bind fun es hes => ?_
  rw [orThrow_except, LoadOptions.manifest, mapError_eq_ok] at hm
  rw [orThrow_except, mapError_eq_ok] at hes
  refine Asks.foldlM (fun e he => asks_loadEntry fun hplain => ?_) ∅
  obtain ⟨line, hline, hentry⟩ := (Manifest.mem_entriesOf hes).1 he
  rw [(Manifest.entryOf_eq_ok hentry).2] at hplain ⊢
  exact ⟨bytes, m, hbytes, hm, line, hline, hplain, rfl⟩

/-! ## Exactness -/

/-- **Loading is exact.** A source can be loaded exactly if its manifest can be read, the source has
what each line requires, and the lines have different signatures. The catalogue then has as many
methods as the manifest has lines, and under the text of each signature the descriptor that its file
has; nothing is filed under a text that is not that of its name. No file is asked for but the
manifest and the files that it names. -/
theorem load_exact (fetch : String → Except Error ByteArray) (options : LoadOptions) :
    ((∃ c, load fetch options = .ok c) ↔
      ∃ bytes m, fetch options.manifestName = .ok bytes ∧ Manifest.parseBytes bytes = .ok m ∧
        (∀ line ∈ m.lines.entries, ∃ s d, Supplies fetch options line s d) ∧
        (m.lines.entries.map fun line => Signature.parse line.1).Nodup) ∧
    (∀ c, load fetch options = .ok c →
      ∃ bytes m, fetch options.manifestName = .ok bytes ∧ Manifest.parseBytes bytes = .ok m ∧
        c.size = m.lines.size ∧
        (∀ line ∈ m.lines.entries, ∃ s d, Supplies fetch options line s d ∧
          c.get? s.render = some d) ∧
        ∀ key d, c.get? key = some d → key = d.name.render) ∧
    ∃ files, load (recording fetch) options [] =
        (load fetch options, options.manifestName :: files) ∧
      ∀ file ∈ files, ∃ bytes m, fetch options.manifestName = .ok bytes ∧
        Manifest.parseBytes bytes = .ok m ∧ m.Names file := by
  refine ⟨exists_load_iff_supplies, fun c hc => ?_, exists_load_recording fetch options⟩
  obtain ⟨bytes, m, es, hbytes, hm, hes, -⟩ := load_eq_ok_iff.1 hc
  obtain ⟨hall, -⟩ := (exists_load_iff hbytes hm hes).1 ⟨c, hc⟩
  refine ⟨bytes, m, hbytes, hm, size_of_load hbytes hm hes hc, fun line hline => ?_,
    fun key d => key_of_load hbytes hm hes hc⟩
  obtain ⟨e, he, hentry⟩ := Manifest.exists_mem_of_entriesOf hes hline
  obtain ⟨d, hread⟩ := hall e he
  exact ⟨e.signature, d, (ManifestEntry.read_eq_ok_iff_supplies hentry).1 hread,
    get?_text_of_load hbytes hm hes hc he hread⟩

/-- A line with the type of the result in front of its signature. The method is filed under the text
without it. -/
theorem load_exact_typed :
    ∃ c, load (typedFiles.fetch "patches") {} = .ok c ∧ c.size = 1 ∧
      c.get? "Log::Write(System.UInt16)" = some .escapes ∧
      ∀ file ∈ (load (recording (typedFiles.fetch "patches")) {} []).2,
        file = "catalogue.json" ∨ file = "first.json" := by
  obtain ⟨hload, hcatalogue, files, hfiles, hnames⟩ := load_exact (typedFiles.fetch "patches") {}
  have hlines : typedManifest.lines.entries =
      [("System.Void Log::Write(System.UInt16)", "first")] := rfl
  have hparse := Manifest.parseBytes_toText typedManifest
  have hmanifest : ∀ {bytes m}, typedFiles.fetch "patches" "catalogue.json" = .ok bytes →
      Manifest.parseBytes bytes = .ok m → m = typedManifest := by
    intro bytes m hbytes hm
    cases hbytes
    rw [hparse] at hm
    exact (Except.ok.inj hm).symm
  have hsignature : Signature.parse "System.Void Log::Write(System.UInt16)" =
      .ok Descriptor.escapes.name := by decide +kernel
  have hsupplies : Supplies (typedFiles.fetch "patches") {}
      ("System.Void Log::Write(System.UInt16)", "first") Descriptor.escapes.name .escapes :=
    ⟨hsignature, isPlainKey_iff.2 (by decide +kernel),
      ⟨_, rfl, by simp, Descriptor.publishable_escapes.parseBytes_eq⟩, rfl⟩
  obtain ⟨c, hc⟩ := hload.2 ⟨_, typedManifest, rfl, hparse,
    hlines ▸ List.forall_mem_singleton.2 ⟨_, _, hsupplies⟩, hlines ▸ List.nodup_singleton _⟩
  obtain ⟨bytes, m, hbytes, hm, hsize, hget, -⟩ := hcatalogue c hc
  cases hmanifest hbytes hm
  obtain ⟨s, d, hsupplied, hget⟩ := List.forall_mem_singleton.1 (hlines ▸ hget)
  obtain ⟨rfl, rfl⟩ := hsupplied.unique hsupplies
  refine ⟨c, hc, hsize, hget, fun file hfile => ?_⟩
  rw [hfiles] at hfile
  rcases List.mem_cons.1 hfile with rfl | hfile
  · exact .inl rfl
  · obtain ⟨bytes, m, hbytes, hm, line, hline, -, rfl⟩ := hnames file hfile
    cases hmanifest hbytes hm
    cases List.mem_singleton.1 (hlines ▸ hline)
    exact .inr rfl

end Hotswap
