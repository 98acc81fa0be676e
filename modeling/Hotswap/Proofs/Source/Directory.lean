import Hotswap.Proofs.Source.Loading
import Mathlib

/-!
# Publishing to a directory

A directory is a map of files here (`FileMap`). Publishing writes the file of the descriptor and
lists its signature in the manifest. A manifest files its lines under texts, so a signature that was
listed under another text than its own is then listed twice, and the directory cannot be loaded any
more.

* `load_apply` and `publish_apply` say what loading and publishing do to the map.
* `Manifest.Admits` is what a manifest must be like for a signature to be listed with a key.
  `exists_load_published_iff`: a source that could be loaded can be loaded after a publication
  exactly if its manifest admits that, and `get?_of_load_published`: then only the published
  signature has changed.
* `insert_updates_iff` has both sides, that of the manifest and that of the directory, and
  `not_load_publish_escapes` is a directory that a publication spoils.
-/

namespace Hotswap

/-! ## Names of files -/

namespace Path

/-- The name of a file is no absolute path. -/
theorem head_ne_of_isFileName {name : String} (h : isFileName name = true) :
    name.toList.head? ≠ some '/' := by
  intro hhead
  obtain ⟨rest, hrest⟩ := List.head?_eq_some_iff.1 hhead
  unfold isFileName pieces at h
  rw [hrest, split] at h
  simp at h

/-- A path without a separator has one part. -/
theorem split_of_forall_ne {cs : List Char} (h : ∀ c ∈ cs, c ≠ '/') : split cs = [cs] := by
  induction cs with
  | nil => rfl
  | cons c rest ih =>
    obtain ⟨hc, hrest⟩ := List.forall_mem_cons.1 h
    rw [split, ih hrest]
    exact hc

/-- Names of files have different paths. -/
theorem join_inj {root a b : String} (ha : isFileName a = true) (hb : isFileName b = true) :
    join root a = join root b ↔ a = b := by
  unfold join
  by_cases hempty : root.isEmpty = true
  · simp [hempty]
  · by_cases hslash : root.toList.getLast? = some '/'
    · simp [hempty, hslash, head_ne_of_isFileName ha, head_ne_of_isFileName hb]
    · simp [hempty, hslash, head_ne_of_isFileName ha, head_ne_of_isFileName hb]

/-- The file of a descriptor is right under the root. -/
theorem isFileName_descriptorFile_key (d : Descriptor) :
    isFileName (descriptorFile d.key) = true := by
  have hnone : ∀ c ∈ (descriptorFile d.key).toList, c ≠ '/' := by
    intro c hc
    rw [descriptorFile, String.toList_append, List.mem_append] at hc
    rcases hc with hc | hc
    · obtain ⟨n, hn, rfl⟩ := exists_hexDigit_of_mem_contentKey hc
      intro hslash
      have hplain := isKeyChar_hexDigit n hn
      rw [hslash] at hplain
      revert hplain
      decide
    · rintro rfl
      revert hc
      decide
  have hlength : (descriptorFile d.key).length = d.key.length + 5 := by
    rw [descriptorFile, String.length_append]
    rfl
  have hlong : descriptorFile d.key ∉ ["", ".", ".."] := by
    intro hmem
    have hshort : ∀ s ∈ ["", ".", ".."], s.length ≤ 2 := by decide
    have := hshort _ hmem
    omega
  unfold isFileName pieces
  rw [split_of_forall_ne hnone]
  simpa using hlong

end Path

/-! ## Reading without writing -/

section

variable {σ α β : Type} {s : σ}

/-- Throwing a result leaves the state as it is. -/
theorem orThrow_apply (r : Except Error α) (s : σ) :
    (orThrow r : ExceptT Error (StateM σ) α) s = (orThrow r, s) := by
  cases r <;> rfl

/-- A computation that reads goes on as a plain one. -/
theorem bind_apply {x : ExceptT Error (StateM σ) α} {f : α → ExceptT Error (StateM σ) β}
    {r : Except Error α} {k : α → Except Error β} (hx : x s = (r, s)) (hf : ∀ a, f a s = (k a, s)) :
    (x >>= f) s = (r >>= k, s) := by
  dsimp only [bind, ExceptT.bind, ExceptT.mk, StateT.bind]
  rw [hx]
  cases r with
  | error e => rfl
  | ok a => exact hf a

/-- After a result the rest runs in the state that is left. -/
theorem bind_of_ok {x : ExceptT Error (StateM σ) α} {f : α → ExceptT Error (StateM σ) β} {a : α}
    {s' : σ} (hx : x s = (.ok a, s')) : (x >>= f) s = f a s' := by
  dsimp only [bind, ExceptT.bind, ExceptT.mk, StateT.bind]
  rw [hx]
  rfl

/-- After an error nothing else runs. -/
theorem bind_of_error {x : ExceptT Error (StateM σ) α} {f : α → ExceptT Error (StateM σ) β}
    {e : Error} {s' : σ} (hx : x s = (.error e, s')) : (x >>= f) s = (.error e, s') := by
  dsimp only [bind, ExceptT.bind, ExceptT.mk, StateT.bind]
  rw [hx]
  rfl

/-- A loop that reads in each round is a plain loop. -/
theorem foldlM_apply {f : β → α → ExceptT Error (StateM σ) β} {k : β → α → Except Error β}
    (h : ∀ b a, f b a s = (k b a, s)) (b : β) (as : List α) :
    (as.foldlM f b) s = (as.foldlM k b, s) := by
  induction as generalizing b with
  | nil => rfl
  | cons a rest ih =>
    rw [List.foldlM_cons, List.foldlM_cons]
    exact bind_apply (h b a) fun b => ih b

/-- Loading through a function that reads is loading what it reads. -/
theorem load_of_reads {fetch : String → ExceptT Error (StateM σ) ByteArray}
    {content : String → Except Error ByteArray} (h : ∀ name, fetch name s = (content name, s))
    (options : LoadOptions) : load fetch options s = (load content options, s) := by
  have hentry : ∀ c e, loadEntry fetch options c e s = (loadEntry content options c e, s) :=
    fun c e => bind_apply (orThrow_apply _ s) fun file => bind_apply (h file) fun bytes =>
      bind_apply (orThrow_apply _ s) fun d => orThrow_apply _ s
  exact bind_apply (h _) fun bytes => bind_apply (orThrow_apply _ s) fun m =>
    bind_apply (orThrow_apply _ s) fun es => foldlM_apply hentry ∅ es

end

/-! ## Publication -/

/-- A source after a descriptor has been published to it: its file and the manifest are new. -/
def published (fetch : String → Except Error ByteArray) (m : Manifest) (d : Descriptor)
    (name : String) : Except Error ByteArray :=
  if name = defaultManifest then .ok (m.insert d.name d.key).toText.toUTF8
  else if name = descriptorFile d.key then .ok d.toText.toUTF8
  else fetch name

section

variable {fetch : String → Except Error ByteArray} {options : LoadOptions} {m : Manifest}
  {d d' : Descriptor} {e : ManifestEntry}

/-- The manifest of a publication lists the new key. -/
theorem published_manifest (hname : options.manifestName = defaultManifest) :
    published fetch m d options.manifestName = .ok (m.insert d.name d.key).toText.toUTF8 := by
  rw [hname, published, if_pos rfl]

/-- The file of the new key has the descriptor. -/
theorem read_published_of_key_eq (hkey : e.key = d.key) :
    e.read (published fetch m d) options = .ok d' ↔
      Descriptor.parse d.toText = .ok d' ∧ d'.name = e.signature := by
  have hfetch : published fetch m d (descriptorFile e.key) = .ok d.toText.toUTF8 := by
    rw [hkey, published, if_neg (descriptorFile_key_ne d), if_pos rfl]
  rw [ManifestEntry.read_eq_ok_iff_of_contentKey e hkey hfetch]
  have hparse : Descriptor.parseBytes d.toText.toUTF8 = Descriptor.parse d.toText :=
    Document.decodeBytes_toUTF8 _ _
  rw [hparse]

/-- An entry with another key that could be read is read as before. The manifest is not a
descriptor, so its file is not the manifest. -/
theorem read_published_of_key_ne {bytes : ByteArray} (hbytes : fetch defaultManifest = .ok bytes)
    (hm : Manifest.parseBytes bytes = .ok m) (hkey : e.key ≠ d.key)
    (hread : e.read fetch options = .ok d') :
    e.read (published fetch m d) options = .ok d' := by
  obtain ⟨hempty, hplain, content, hcontent, hverify, hparse, hname⟩ :=
    ManifestEntry.read_eq_ok_iff.1 hread
  have hfile : descriptorFile e.key ≠ defaultManifest := by
    intro hfile
    rw [hfile, hbytes] at hcontent
    cases hcontent
    exact not_descriptor_of_manifest hm d' hparse
  refine ManifestEntry.read_eq_ok_iff.2 ⟨hempty, hplain, content, ?_, hverify, hparse, hname⟩
  rw [published, if_neg hfile, if_neg fun hsame => hkey (descriptorFile_inj.1 hsame), hcontent]

/-- If the other entries can still be read, then none of them has the new key: it would be read as
the descriptor, which is not of its signature. -/
theorem admits_of_read_published {es : List ManifestEntry}
    (hothers : Manifest.entriesOf (m.lines.entries.filter (·.1 ≠ d.name.render)) = .ok es)
    (hother : ∀ e ∈ es, e.signature ≠ d.name)
    (hall : ∀ e ∈ es, ∃ d', e.read (published fetch m d) options = .ok d')
    (hread : Descriptor.parse d.toText = .ok d' ∧ d'.name = d.name) :
    m.Admits d.name d.key := by
  refine ⟨(Manifest.forall_ne_iff_listsPlainly hothers).1 hother, fun line hline hkey => ?_⟩
  by_contra htext
  have hkept : line ∈ m.lines.entries.filter (·.1 ≠ d.name.render) :=
    List.mem_filter.2 ⟨hline, by simpa using htext⟩
  obtain ⟨e, he, hentry⟩ := Manifest.exists_mem_of_entriesOf hothers hkept
  obtain ⟨d'', hd''⟩ := hall e he
  have hread' := (read_published_of_key_eq ((Manifest.entryOf_eq_ok hentry).2.trans hkey)).1 hd''
  rw [hread.1] at hread'
  cases hread'.1
  exact hother e he (hread'.2.symm.trans hread.2)

variable {bytes : ByteArray} {es : List ManifestEntry} {c : Catalogue}
  (hname : options.manifestName = defaultManifest) (hbytes : fetch defaultManifest = .ok bytes)
  (hm : Manifest.parseBytes bytes = .ok m) (hes : m.entries = .ok es) (hs : d.name.WellFormed)
  (hc : load fetch options = .ok c)

include hname hbytes hm hes hs hc

/-- **A source that could be loaded** can be loaded after a publication exactly if its manifest
admits the signature with the key, and the text of the descriptor is read as one of that name. -/
theorem exists_load_published_iff :
    (∃ c', load (published fetch m d) options = .ok c') ↔
      m.Admits d.name d.key ∧ ∃ d', Descriptor.parse d.toText = .ok d' ∧ d'.name = d.name := by
  obtain ⟨hall, hnodup⟩ := (exists_load_iff (hname ▸ hbytes) hm hes).1 ⟨c, hc⟩
  obtain ⟨before, after, hentries, hothers, hsublist, -⟩ := Manifest.entries_insert hes hs d.key
  rw [exists_load_iff (published_manifest hname) (Manifest.parseBytes_toText _) hentries,
    List.map_append, List.map_cons, List.nodup_middle, List.nodup_cons, ← List.map_append]
  constructor
  · rintro ⟨hall', hnew, -⟩
    have hother : ∀ e ∈ before ++ after, e.signature ≠ d.name := by
      intro e he hsignature
      exact hnew (List.mem_map.2 ⟨e, he, congrArg Signature.render hsignature⟩)
    obtain ⟨d', hd'⟩ := hall' ⟨d.name, d.key, false⟩ (List.perm_middle.mem_iff.2 List.mem_cons_self)
    have hread := (read_published_of_key_eq rfl).1 hd'
    refine ⟨admits_of_read_published hothers hother (fun e he => hall' e ?_) hread, d', hread⟩
    exact List.perm_middle.mem_iff.2 (List.mem_cons_of_mem _ he)
  · rintro ⟨hadmits, d', hread⟩
    refine ⟨fun e he => ?_, ?_, ?_⟩
    · rcases List.mem_cons.1 (List.perm_middle.mem_iff.1 he) with rfl | he
      · exact ⟨d', (read_published_of_key_eq rfl).2 hread⟩
      · obtain ⟨d'', hd''⟩ := hall e (hsublist.subset he)
        exact ⟨d'', read_published_of_key_ne hbytes hm (hadmits.key_ne hothers he) hd''⟩
    · intro hmem
      obtain ⟨e, he, htext⟩ := List.mem_map.1 hmem
      exact (Manifest.forall_ne_iff_listsPlainly hothers).2 hadmits.1 e he
        ((Manifest.text_eq_render_iff hothers hs he).1 htext)
    · exact hnodup.sublist (hsublist.map _)

/-- **Only the published signature has changed**: under its text there is what the text of the
descriptor is read as, and under other texts what there was. -/
theorem get?_of_load_published {c' : Catalogue}
    (hc' : load (published fetch m d) options = .ok c') (text : String) :
    c'.get? text =
      if text = d.name.render then (Descriptor.parse d.toText).toOption else c.get? text := by
  obtain ⟨hall, -⟩ := (exists_load_iff (hname ▸ hbytes) hm hes).1 ⟨c, hc⟩
  obtain ⟨hadmits, d', hread⟩ :=
    (exists_load_published_iff hname hbytes hm hes hs hc).1 ⟨c', hc'⟩
  obtain ⟨before, after, hentries, hothers, hsublist, hfilter⟩ :=
    Manifest.entries_insert hes hs d.key
  rw [get?_of_load (published_manifest hname) (Manifest.parseBytes_toText _) hentries hc']
  by_cases htext : text = d.name.render
  · -- The new entry is found, since no line before it has its signature.
    subst htext
    have hbefore : before.find? (·.text = d.name.render) = none := by
      rw [List.find?_eq_none]
      intro e he hsame
      have he := List.mem_append_left after he
      exact (Manifest.forall_ne_iff_listsPlainly hothers).2 hadmits.1 e he
        ((Manifest.text_eq_render_iff hothers hs he).1 (of_decide_eq_true hsame))
    have hnew : ManifestEntry.text ⟨d.name, d.key, false⟩ = d.name.render := rfl
    rw [if_pos rfl, List.find?_append, hbefore, Option.none_or,
      List.find?_cons_of_pos (by simp [hnew]), Option.bind_some,
      (read_published_of_key_eq rfl).2 hread, hread.1]
    rfl
  · rw [if_neg htext, get?_of_load (hname ▸ hbytes) hm hes hc,
      ← Manifest.find?_text_eq hfilter htext]
    cases hfind : (before ++ ⟨d.name, d.key, false⟩ :: after).find? (·.text = text) with
    | none => rfl
    | some e =>
      have hfound : e.text = text := by simpa using List.find?_some hfind
      have hother : e ∈ before ++ after := by
        have hmem := List.perm_middle.mem_iff.1 (List.mem_of_find?_eq_some hfind)
        rcases List.mem_cons.1 hmem with rfl | hother
        · exact absurd hfound.symm htext
        · exact hother
      obtain ⟨d'', hd''⟩ := hall e (hsublist.subset hother)
      rw [Option.bind_some, Option.bind_some, hd'',
        read_published_of_key_ne hbytes hm (hadmits.key_ne hothers hother) hd'']

end

/-! ## Files by path -/

/-- The contents of files, by path. -/
abbrev FileMap := Table String ByteArray

namespace FileMap

/-- What a map has at a path. -/
def read (files : FileMap) (path : String) : Except FileFault ByteArray :=
  match files.get? path with
  | some bytes => .ok bytes
  | none => .error .missing

/-- Reading and writing the files of a map. -/
def access : FileAccess (StateM FileMap) where
  read path := return (← get).read path
  write path bytes := do
    modify (·.insert path bytes)
    return .ok ()

/-- The file of a name right under a root. -/
def fetch (files : FileMap) (root name : String) : Except Error ByteArray :=
  if Path.isFileName name then
    FileAccess.orFault (Path.join root name) (files.read (Path.join root name))
  else .error (.load (.notAFileName name root))

variable {files : FileMap} {root : String}

/-- Fetching leaves the files as they are. -/
theorem fetch_apply (files : FileMap) (root name : String) :
    access.fetch root name files = (files.fetch root name, files) := by
  unfold FileAccess.fetch fetch
  by_cases hname : Path.isFileName name = true
  · rw [if_pos hname, if_pos hname]
    exact (orThrow_apply _ files).trans (by rw [orThrow_except]; rfl)
  · rw [if_neg hname, if_neg hname]
    rfl

/-- **Loading** leaves the files as they are. -/
theorem load_apply (files : FileMap) (root : String) (options : LoadOptions) :
    access.load root options files = (load (files.fetch root) options, files) :=
  load_of_reads (fetch_apply files root) options

/-- What is fetched is the file of a name. -/
theorem get?_of_fetch {name : String} {bytes : ByteArray}
    (h : files.fetch root name = .ok bytes) :
    Path.isFileName name = true ∧ files.get? (Path.join root name) = some bytes := by
  unfold fetch read at h
  by_cases hname : Path.isFileName name = true
  · rw [if_pos hname] at h
    cases hget : files.get? (Path.join root name) with
    | none =>
      rw [hget] at h
      cases h
    | some bytes' =>
      rw [hget] at h
      cases h
      exact ⟨hname, rfl⟩
  · rw [if_neg hname] at h
    cases h

/-- Writing the file of a name changes what is fetched under that name. -/
theorem fetch_insert {name : String} (hname : Path.isFileName name = true) (bytes : ByteArray)
    (name' : String) :
    FileMap.fetch (files.insert (Path.join root name) bytes) root name' =
      if name' = name then .ok bytes else files.fetch root name' := by
  unfold fetch read
  by_cases hname' : Path.isFileName name' = true
  · rw [if_pos hname', if_pos hname']
    by_cases hsame : name' = name
    · rw [if_pos hsame, hsame, Table.get?_insert_self]
      rfl
    · rw [if_neg hsame, Table.get?_insert_of_ne _ _ fun hpath =>
        hsame ((Path.join_inj hname' hname).1 hpath)]
  · have hother : name' ≠ name := by
      rintro rfl
      exact hname' hname
    rw [if_neg hname', if_neg hname', if_neg hother]

/-- **Publishing** writes the file of the descriptor and the manifest. -/
theorem publish_apply {bytes : ByteArray} {m : Manifest}
    (hbytes : files.fetch root defaultManifest = .ok bytes)
    (hm : Manifest.parseBytes bytes = .ok m) (d : Descriptor) :
    access.publish root d files = (.ok d.key,
      Table.insert (files.insert (Path.join root (descriptorFile d.key)) d.toText.toUTF8)
        (Path.join root defaultManifest) (m.insert d.name d.key).toText.toUTF8) := by
  have hread : FileMap.read (files.insert (Path.join root (descriptorFile d.key)) d.toText.toUTF8)
      (Path.join root defaultManifest) = .ok bytes := by
    have hfetch := @fetch_insert files root _ (Path.isFileName_descriptorFile_key d)
      d.toText.toUTF8 defaultManifest
    rw [if_neg (descriptorFile_key_ne d).symm, hbytes] at hfetch
    rw [read, (get?_of_fetch hfetch).2]
  have hwrite : ∀ (files : FileMap) (path : String) (bytes : ByteArray),
      (liftM (access.write path bytes) : ExceptT Error (StateM FileMap) _) files =
        (.ok (.ok ()), files.insert path bytes) := fun _ _ _ => rfl
  have hreads : ∀ (files : FileMap) (path : String),
      (liftM (access.read path) : ExceptT Error (StateM FileMap) _) files =
        (.ok (files.read path), files) := fun _ _ => rfl
  have hmanifest : FileAccess.publishedManifest (Path.join root defaultManifest) (.ok bytes) =
      .ok m := mapError_eq_ok.2 hm
  unfold FileAccess.publish
  rw [bind_of_ok (hwrite _ _ _), bind_of_ok (orThrow_apply _ _), bind_of_ok (hreads _ _)]
  rw [show contentKey d.toText.toUTF8 = d.key from rfl, hread, hmanifest]
  rw [bind_of_ok (orThrow_apply _ _), bind_of_ok (hwrite _ _ _), bind_of_ok (orThrow_apply _ _)]
  rfl

/-- What is fetched after a publication. -/
theorem fetch_of_publish (m : Manifest) (d : Descriptor) :
    FileMap.fetch
        (Table.insert (files.insert (Path.join root (descriptorFile d.key)) d.toText.toUTF8)
          (Path.join root defaultManifest) (m.insert d.name d.key).toText.toUTF8) root =
      published (files.fetch root) m d := by
  funext name
  rw [fetch_insert (by decide +kernel), fetch_insert (Path.isFileName_descriptorFile_key d)]
  rfl

end FileMap

/-- **Listing is an update** of the entries by signature exactly if the signature was listed under
no text but its own. Publishing to a directory that can be loaded gives one that can be loaded
exactly if the manifest admits the signature with the key, and the text of the descriptor is read as
one of that name; then only the published signature has changed. -/
theorem insert_updates_iff {m : Manifest} {es : List ManifestEntry} (hes : m.entries = .ok es)
    {s : Signature} (hs : ∃ text, Signature.parse text = .ok s) (key : String) :
    (∃ es', (m.insert s key).entries = .ok es' ∧
      es'.filter (·.signature ≠ s) = es.filter (·.signature ≠ s) ∧
      ((∃ e, es'.filter (·.signature = s) = [e] ∧ e.key = key) ↔ m.ListsPlainly s)) ∧
    ∀ (files : FileMap) (root : String) (bytes : ByteArray) (verify : Bool) (c : Catalogue)
      (d : Descriptor), d.name = s → d.key = key →
      files.fetch root defaultManifest = .ok bytes → Manifest.parseBytes bytes = .ok m →
      (FileMap.access.load root { verifyContentKeys := verify } files).1 = .ok c →
      ∃ files', FileMap.access.publish root d files = (.ok key, files') ∧
        ((∃ c', (FileMap.access.load root { verifyContentKeys := verify } files').1 = .ok c') ↔
          m.Admits s key ∧ ∃ d', Descriptor.parse d.toText = .ok d' ∧ d'.name = s) ∧
        ∀ c', (FileMap.access.load root { verifyContentKeys := verify } files').1 = .ok c' →
          ∀ text, c'.get? text =
            if text = s.render then (Descriptor.parse d.toText).toOption else c.get? text := by
  obtain ⟨text, hs⟩ := hs
  have hs := Signature.wellFormed_of_parse hs
  constructor
  · obtain ⟨before, after, hentries, hothers, -, hfilter⟩ := Manifest.entries_insert hes hs key
    exact ⟨_, hentries, hfilter, Manifest.filter_eq_singleton_iff key hothers⟩
  · rintro files root bytes verify c d rfl rfl hbytes hm hc
    rw [FileMap.load_apply] at hc
    refine ⟨_, FileMap.publish_apply hbytes hm d, ?_, ?_⟩
    · simp only [FileMap.load_apply, FileMap.fetch_of_publish]
      exact exists_load_published_iff rfl hbytes hm hes hs hc
    · simp only [FileMap.load_apply, FileMap.fetch_of_publish]
      intro c' hc'
      exact get?_of_load_published rfl hbytes hm hes hs hc hc'

/-- A manifest that lists a method with the type of its result in front. -/
def typedManifest : Manifest := ⟨.ofList [("System.Void Log::Write(System.UInt16)", "first")]⟩

/-- A directory with that manifest and a descriptor of the method. -/
def typedFiles : FileMap := .ofList [
  ("patches/catalogue.json", typedManifest.toText.toUTF8),
  ("patches/first.json", Descriptor.escapes.toText.toUTF8)]

/-- After the method has been published it has two entries, and the directory can no longer be
loaded. -/
theorem not_load_publish_escapes :
    (∃ c, (FileMap.access.load "patches" {} typedFiles).1 = .ok c) ∧
      (∃ es, (typedManifest.insert Descriptor.escapes.name Descriptor.escapes.key).entries =
          .ok es ∧
        ¬∃ e, es.filter (·.signature = Descriptor.escapes.name) = [e] ∧
          e.key = Descriptor.escapes.key) ∧
      ∃ files, FileMap.access.publish "patches" .escapes typedFiles =
          (.ok Descriptor.escapes.key, files) ∧
        ¬∃ c, (FileMap.access.load "patches" {} files).1 = .ok c := by
  have hentries : typedManifest.entries = .ok [⟨Descriptor.escapes.name, "first", true⟩] := by
    decide +kernel
  have hname : ∃ text, Signature.parse text = .ok Descriptor.escapes.name :=
    Descriptor.publishable_escapes.names.name
  have hmanifest : typedFiles.fetch "patches" defaultManifest =
      .ok typedManifest.toText.toUTF8 := rfl
  have hfile : typedFiles.fetch "patches" "first.json" =
      .ok Descriptor.escapes.toText.toUTF8 := rfl
  have hparse := Manifest.parseBytes_toText typedManifest
  have hread : ManifestEntry.read (typedFiles.fetch "patches") {}
      ⟨Descriptor.escapes.name, "first", true⟩ = .ok .escapes :=
    ManifestEntry.read_eq_ok_iff.2 ⟨by decide +kernel, by decide +kernel, _, hfile, by simp,
      Descriptor.publishable_escapes.parseBytes_eq, rfl⟩
  obtain ⟨c, hc⟩ : ∃ c, (FileMap.access.load "patches" {} typedFiles).1 = .ok c := by
    rw [FileMap.load_apply]
    exact (exists_load_iff hmanifest hparse hentries).2
      ⟨List.forall_mem_singleton.2 ⟨_, hread⟩, List.nodup_singleton _⟩
  have hother : ¬typedManifest.ListsPlainly Descriptor.escapes.name := by decide +kernel
  obtain ⟨⟨es, hes, -, hsingle⟩, hpublish⟩ :=
    insert_updates_iff hentries hname Descriptor.escapes.key
  obtain ⟨files, hfiles, hload, -⟩ :=
    hpublish typedFiles "patches" _ false c .escapes rfl rfl hmanifest hparse hc
  refine ⟨⟨c, hc⟩, ⟨es, hes, fun h => hother (hsingle.1 h)⟩, files, hfiles, fun h => ?_⟩
  exact hother (hload.1 h).1.1

end Hotswap
