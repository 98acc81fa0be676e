import Hotswap.Manifest
import Hotswap.Proofs.Document.Decoder
import Hotswap.Proofs.Signature
import Hotswap.Proofs.Table
import Mathlib

/-!
# Lines of a manifest

A manifest files its lines under the text of a signature, and one signature has many texts: a type
may stand in front of it, and blanks between its parts.

* `parseBytes_toText`: a manifest is read back from the file it is written to.
* `entries_insert` says where listing a signature puts its entry, and that the entries of other
  signatures stay as they are. The new entry is the only one of its signature exactly if the
  signature was listed under no other text (`filter_eq_singleton_iff`).
-/

namespace Hotswap

/-! ## Files -/

/-- The characters of a file that a text was written to are those of the text. -/
theorem Text.decode_toUTF8 (text : String) : decode text.toUTF8 = source text.toList := by
  have hread : String.fromUTF8? text.toUTF8 = some text := dif_pos text.isValidUTF8
  unfold decode
  rw [hread]

/-- A document is decoded from a file as from the text that was written to it. -/
theorem Document.decodeBytes_toUTF8 {α : Type} (decode : Document → Decoded α) (text : String) :
    decodeBytes decode text.toUTF8 = decodeSource decode text := by
  rw [decodeBytes, Text.decode_toUTF8]
  rfl

/-- The text that the descriptor of an entry is filed under. -/
def ManifestEntry.text (e : ManifestEntry) : String := e.signature.render

namespace Manifest

/-! ## Reading what is written -/

/-- The members of the object of a manifest. -/
def lineMembers (lines : List (String × String)) : List (String × Document) :=
  lines.map fun line =>
    (String.ofList (Document.encodeText line.1.toList), Document.ofString line.2)

/-- A manifest is written as the object of its lines. -/
theorem toDocument_eq (m : Manifest) : m.toDocument = .object (lineMembers m.lines.entries) := by
  rw [toDocument, Document.ofMembers, List.map_map]
  rfl

/-- Lines are put into the table in the order they are written. -/
theorem decodeLines_entries {t u : Table String String} {rest : List (String × String)}
    (hentries : u.entries = t.entries ++ rest) : decodeLines t (lineMembers rest) = .ok u := by
  induction rest generalizing t with
  | nil =>
    have hsame : t = u := Table.ext (by rw [hentries, List.append_nil])
    rw [hsame]
    rfl
  | cons line rest ih =>
    -- The texts increase, so the next one is larger than those in the table.
    have hlarger : ∀ e ∈ t.entries, compare e.1 line.1 = .lt := by
      have hincreasing := u.increasing
      rw [hentries, List.pairwise_append] at hincreasing
      exact fun e he => hincreasing.2.2 e he line List.mem_cons_self
    rw [lineMembers, List.map_cons, decodeLines, Document.textOf?_encode, Document.require_some,
      ok_bind, Document.decodeString_ofString, ok_bind]
    refine ih ?_
    rw [Table.entries_insert line.2 hlarger, hentries, List.append_assoc]
    rfl

/-- All values of that object are strings. -/
theorem isWritten_toDocument (m : Manifest) : m.toDocument.IsWritten := by
  refine Document.isWritten_ofMembers fun member hmember => ?_
  obtain ⟨line, -, rfl⟩ := List.mem_map.1 hmember
  exact Document.isWritten_ofString line.2

/-- **A manifest is read back from the file it is written to.** -/
theorem parseBytes_toText (m : Manifest) : parseBytes m.toText.toUTF8 = .ok m := by
  have hlines : decodeLines ∅ (lineMembers m.lines.entries) = .ok m.lines :=
    decodeLines_entries rfl
  rw [parseBytes, Document.decodeBytes_toUTF8, toText,
    Document.decodeSource_pretty decode (isWritten_toDocument m), toDocument_eq, decode, hlines]
  rfl

/-! ## Entries -/

/-- The text of a signature that can be read is read as the signature. -/
theorem entryOf_render {s : Signature} (hs : s.WellFormed) (key : String) :
    entryOf (s.render, key) = .ok ⟨s, key, false⟩ := by
  rw [entryOf, MethodRef.parse_render_signature hs]
  rfl

/-- The signature of an entry is the one that the text of its line is read as. -/
theorem entryOf_eq_ok {line : String × String} {e : ManifestEntry} (h : entryOf line = .ok e) :
    Signature.parse line.1 = .ok e.signature ∧ e.key = line.2 := by
  obtain ⟨method, hmethod, h⟩ := bind_eq_ok.1 h
  cases h
  exact ⟨map_eq_ok.2 ⟨method, hmethod, rfl⟩, rfl⟩

/-- A line has an entry of a signature exactly if its text is read as the signature. -/
theorem exists_entryOf_iff {line : String × String} {s : Signature} :
    (∃ e, entryOf line = .ok e ∧ e.signature = s) ↔ Signature.parse line.1 = .ok s := by
  constructor
  · rintro ⟨e, he, rfl⟩
    exact (entryOf_eq_ok he).1
  · intro h
    obtain ⟨method, hmethod, rfl⟩ := map_eq_ok.1 h
    refine ⟨⟨method.signature, line.2, method.returnType.isSome⟩, ?_, rfl⟩
    rw [entryOf, hmethod]
    rfl

/-- The first line has the first entry. -/
theorem entriesOf_cons {line : String × String} {rest : List (String × String)}
    {es : List ManifestEntry} :
    entriesOf (line :: rest) = .ok es ↔
      ∃ e es', entryOf line = .ok e ∧ entriesOf rest = .ok es' ∧ es = e :: es' := by
  rw [entriesOf]
  constructor
  · intro h
    obtain ⟨e, he, h⟩ := bind_eq_ok.1 h
    obtain ⟨es', hes', h⟩ := bind_eq_ok.1 h
    cases h
    exact ⟨e, es', he, hes', rfl⟩
  · rintro ⟨e, es', he, hes', rfl⟩
    rw [he, ok_bind, hes']
    rfl

/-- Lines in two parts have entries in two parts. -/
theorem entriesOf_append {lines lines' : List (String × String)} {es : List ManifestEntry} :
    entriesOf (lines ++ lines') = .ok es ↔
      ∃ as bs, entriesOf lines = .ok as ∧ entriesOf lines' = .ok bs ∧ es = as ++ bs := by
  induction lines generalizing es with
  | nil => simp [entriesOf]
  | cons line rest ih =>
    rw [List.cons_append, entriesOf_cons]
    simp only [ih, entriesOf_cons]
    constructor
    · rintro ⟨e, -, he, ⟨as, bs, has, hbs, rfl⟩, rfl⟩
      exact ⟨e :: as, bs, ⟨e, as, he, has, rfl⟩, hbs, rfl⟩
    · rintro ⟨-, bs, ⟨e, as, he, has, rfl⟩, hbs, rfl⟩
      exact ⟨e, as ++ bs, he, ⟨as, bs, has, hbs, rfl⟩, rfl⟩

/-- Each entry is that of a line, and each line has one. -/
theorem mem_entriesOf {lines : List (String × String)} {es : List ManifestEntry}
    (h : entriesOf lines = .ok es) {e : ManifestEntry} :
    e ∈ es ↔ ∃ line ∈ lines, entryOf line = .ok e := by
  induction lines generalizing es with
  | nil =>
    cases h
    simp
  | cons line rest ih =>
    obtain ⟨e', es', he', hes', rfl⟩ := entriesOf_cons.1 h
    simp only [List.mem_cons, ih hes', exists_eq_or_imp, he', Except.ok.injEq]
    rw [eq_comm]

/-- If all lines have entries, then each of them has one among these. -/
theorem exists_mem_of_entriesOf {lines : List (String × String)} {es : List ManifestEntry}
    (h : entriesOf lines = .ok es) {line : String × String} (hline : line ∈ lines) :
    ∃ e ∈ es, entryOf line = .ok e := by
  induction lines generalizing es with
  | nil => cases hline
  | cons first rest ih =>
    obtain ⟨e, es', he, hes', rfl⟩ := entriesOf_cons.1 h
    rcases List.mem_cons.1 hline with rfl | hline
    · exact ⟨e, List.mem_cons_self, he⟩
    · obtain ⟨e', hmem, he'⟩ := ih hes' hline
      exact ⟨e', List.mem_cons_of_mem e hmem, he'⟩

/-- If each line has an entry, then all of them have. -/
theorem exists_entriesOf {lines : List (String × String)}
    (h : ∀ line ∈ lines, ∃ e, entryOf line = .ok e) : ∃ es, entriesOf lines = .ok es := by
  induction lines with
  | nil => exact ⟨[], rfl⟩
  | cons line rest ih =>
    obtain ⟨⟨e, he⟩, hrest⟩ := List.forall_mem_cons.1 h
    obtain ⟨es, hes⟩ := ih hrest
    exact ⟨e :: es, entriesOf_cons.2 ⟨e, es, he, hes, rfl⟩⟩

/-- The entries have the signatures of the lines, in order. -/
theorem map_parse_entriesOf {lines : List (String × String)} {es : List ManifestEntry}
    (h : entriesOf lines = .ok es) :
    lines.map (fun line => Signature.parse line.1) =
      es.map fun e => Except.ok e.signature := by
  induction lines generalizing es with
  | nil =>
    cases h
    rfl
  | cons line rest ih =>
    obtain ⟨e, es', he, hes', rfl⟩ := entriesOf_cons.1 h
    rw [List.map_cons, List.map_cons, (entryOf_eq_ok he).1, ih hes']

/-- The lines have different signatures exactly if the entries have different texts. -/
theorem nodup_map_parse_iff {lines : List (String × String)} {es : List ManifestEntry}
    (h : entriesOf lines = .ok es) :
    (lines.map fun line => Signature.parse line.1).Nodup ↔
      (es.map ManifestEntry.text).Nodup := by
  have hwellFormed : ∀ e ∈ es, e.signature.WellFormed := by
    intro e he
    obtain ⟨line, -, hentry⟩ := (mem_entriesOf h).1 he
    exact Signature.wellFormed_of_parse (entryOf_eq_ok hentry).1
  rw [map_parse_entriesOf h, List.Nodup, List.Nodup, List.pairwise_map, List.pairwise_map]
  refine List.Pairwise.iff_of_mem fun {a b} ha hb => not_congr ?_
  constructor
  · intro hsame
    exact congrArg Signature.render (Except.ok.inj hsame)
  · intro htext
    exact congrArg _ (Signature.render_inj (hwellFormed a ha) (hwellFormed b hb) htext)

/-- If each line has the text of its signature, then the entries have the texts of the lines. -/
theorem map_text_entriesOf {lines : List (String × String)} {es : List ManifestEntry}
    (h : entriesOf lines = .ok es)
    (htext : ∀ line ∈ lines, ∀ e, entryOf line = .ok e → e.text = line.1) :
    es.map ManifestEntry.text = lines.map (·.1) := by
  induction lines generalizing es with
  | nil =>
    cases h
    rfl
  | cons line rest ih =>
    obtain ⟨e, es', he, hes', rfl⟩ := entriesOf_cons.1 h
    obtain ⟨hfirst, hrest⟩ := List.forall_mem_cons.1 htext
    rw [List.map_cons, List.map_cons, hfirst e he, ih hes' hrest]

/-- Lines that are left out belong to their signature. -/
theorem entriesOf_filter {text : String} {s : Signature} (htext : Signature.parse text = .ok s)
    {lines : List (String × String)} {es : List ManifestEntry} (h : entriesOf lines = .ok es) :
    ∃ es', entriesOf (lines.filter (·.1 ≠ text)) = .ok es' ∧ es'.Sublist es ∧
      es'.filter (·.signature ≠ s) = es.filter (·.signature ≠ s) := by
  induction lines generalizing es with
  | nil => exact ⟨es, h, .refl es, rfl⟩
  | cons line rest ih =>
    obtain ⟨e, es', he, hes', rfl⟩ := entriesOf_cons.1 h
    obtain ⟨others, hothers, hsublist, hfilter⟩ := ih hes'
    by_cases hline : line.1 = text
    · have hsignature : e.signature = s := by
        have hparse := (entryOf_eq_ok he).1
        rw [hline, htext] at hparse
        exact (Except.ok.inj hparse).symm
      refine ⟨others, ?_, hsublist.cons e, ?_⟩
      · rw [List.filter_cons_of_neg (by simp [hline]), hothers]
      · rw [List.filter_cons_of_neg (by simp [hsignature]), hfilter]
    · refine ⟨e :: others, ?_, hsublist.cons_cons e, ?_⟩
      · rw [List.filter_cons_of_pos (by simpa using hline)]
        exact entriesOf_cons.2 ⟨e, others, he, hothers, rfl⟩
      · rw [List.filter_cons, List.filter_cons, hfilter]

/-! ## Listing a signature -/

/-- A signature is listed under no text but its own. -/
def ListsPlainly (m : Manifest) (s : Signature) : Prop :=
  ∀ line ∈ m.lines.entries, Signature.parse line.1 = .ok s → line.1 = s.render

instance (m : Manifest) (s : Signature) : Decidable (m.ListsPlainly s) :=
  inferInstanceAs (Decidable (∀ line ∈ m.lines.entries, _ → _))

/-- A signature can be listed with a key: it is listed under no text but its own, and no line with
another text has the key. -/
def Admits (m : Manifest) (s : Signature) (key : String) : Prop :=
  m.ListsPlainly s ∧ ∀ line ∈ m.lines.entries, line.2 = key → line.1 = s.render

variable {m : Manifest} {es before after : List ManifestEntry} {s : Signature}

/-- **A signature that is listed** gets an entry between those of the lines with other texts. The
entries of other signatures stay as they are. -/
theorem entries_insert (h : m.entries = .ok es) (hs : s.WellFormed) (key : String) :
    ∃ before after, (m.insert s key).entries = .ok (before ++ ⟨s, key, false⟩ :: after) ∧
      entriesOf (m.lines.entries.filter (·.1 ≠ s.render)) = .ok (before ++ after) ∧
      (before ++ after).Sublist es ∧
      (before ++ ⟨s, key, false⟩ :: after).filter (·.signature ≠ s) =
        es.filter (·.signature ≠ s) := by
  obtain ⟨linesBefore, linesAfter, hplace, hlines⟩ :=
    Table.exists_place_eq s.render key m.lines.increasing
  obtain ⟨others, hothers, hsublist, hfilter⟩ := entriesOf_filter (Signature.parse_render hs) h
  rw [hlines] at hothers ⊢
  obtain ⟨before, after, hbefore, hafter, rfl⟩ := entriesOf_append.1 hothers
  refine ⟨before, after, ?_, hothers, hsublist, ?_⟩
  · show entriesOf (Table.place s.render key m.lines.entries) = _
    rw [hplace]
    exact entriesOf_append.2 ⟨before, _, hbefore,
      entriesOf_cons.2 ⟨_, after, entryOf_render hs key, hafter, rfl⟩, rfl⟩
  · rw [← hfilter, List.filter_append, List.filter_append, List.filter_cons_of_neg (by simp)]

/-- No line with another text has the signature exactly if it is listed plainly. -/
theorem forall_ne_iff_listsPlainly
    (hothers : entriesOf (m.lines.entries.filter (·.1 ≠ s.render)) = .ok es) :
    (∀ e ∈ es, e.signature ≠ s) ↔ m.ListsPlainly s := by
  constructor
  · intro hnone line hline hparse
    by_contra htext
    have hkept : line ∈ m.lines.entries.filter (·.1 ≠ s.render) :=
      List.mem_filter.2 ⟨hline, by simpa using htext⟩
    obtain ⟨e, he, hentry⟩ := exists_mem_of_entriesOf hothers hkept
    have hsignature := (entryOf_eq_ok hentry).1
    rw [hparse] at hsignature
    exact hnone e he (Except.ok.inj hsignature).symm
  · intro hplain e he hsignature
    obtain ⟨line, hline, hentry⟩ := (mem_entriesOf hothers).1 he
    obtain ⟨hline, htext⟩ := List.mem_filter.1 hline
    have hparse := (entryOf_eq_ok hentry).1
    rw [hsignature] at hparse
    simp [hplain line hline hparse] at htext

/-- An entry is filed under the text of a signature exactly if it has that signature. -/
theorem text_eq_render_iff {lines : List (String × String)} (h : entriesOf lines = .ok es)
    (hs : s.WellFormed) {e : ManifestEntry} (he : e ∈ es) :
    e.text = s.render ↔ e.signature = s := by
  obtain ⟨line, -, hentry⟩ := (mem_entriesOf h).1 he
  have hsignature := Signature.wellFormed_of_parse (entryOf_eq_ok hentry).1
  exact ⟨Signature.render_inj hsignature hs, congrArg Signature.render⟩

/-- Entries that agree but for a signature are found alike under the texts of others. -/
theorem find?_text_eq {es es' : List ManifestEntry}
    (h : es'.filter (·.signature ≠ s) = es.filter (·.signature ≠ s)) {text : String}
    (htext : text ≠ s.render) : es'.find? (·.text = text) = es.find? (·.text = text) := by
  have hskip : ∀ es : List ManifestEntry,
      (es.filter (·.signature ≠ s)).find? (·.text = text) = es.find? (·.text = text) := by
    intro es
    rw [List.find?_filter]
    refine List.find?_congr fun e _ => ?_
    by_cases hsame : e.text = text
    · have hsignature : e.signature ≠ s := by
        rintro rfl
        exact htext hsame.symm
      simp [hsame, hsignature]
    · simp [hsame]
  rw [← hskip es', h, hskip es]

/-- If a key can be listed, then no line with another text has it. -/
theorem Admits.key_ne {key : String} (h : m.Admits s key)
    (hothers : entriesOf (m.lines.entries.filter (·.1 ≠ s.render)) = .ok es) {e : ManifestEntry}
    (he : e ∈ es) : e.key ≠ key := by
  intro hkey
  obtain ⟨line, hline, hentry⟩ := (mem_entriesOf hothers).1 he
  obtain ⟨hline, htext⟩ := List.mem_filter.1 hline
  rw [(entryOf_eq_ok hentry).2] at hkey
  simp [h.2 line hline hkey] at htext

/-- The new entry is the only one of its signature exactly if the signature was listed plainly. -/
theorem filter_eq_singleton_iff (key : String)
    (hothers : entriesOf (m.lines.entries.filter (·.1 ≠ s.render)) = .ok (before ++ after)) :
    (∃ e, (before ++ ⟨s, key, false⟩ :: after).filter (·.signature = s) = [e] ∧ e.key = key) ↔
      m.ListsPlainly s := by
  rw [← forall_ne_iff_listsPlainly hothers, List.filter_append, List.filter_cons_of_pos (by simp)]
  constructor
  · rintro ⟨e, hsingle, -⟩
    obtain ⟨hbefore, hafter⟩ | ⟨-, hafter⟩ := List.append_eq_singleton_iff.1 hsingle
    · have hempty : (before ++ after).filter (·.signature = s) = [] := by
        rw [List.filter_append, hbefore, (List.cons.inj hafter).2, List.append_nil]
      intro e he
      simpa using List.filter_eq_nil_iff.1 hempty e he
    · cases hafter
  · intro hnone
    have hempty : ∀ es : List ManifestEntry, (∀ e ∈ es, e.signature ≠ s) →
        es.filter (·.signature = s) = [] := by
      intro es hes
      simpa [List.filter_eq_nil_iff] using hes
    refine ⟨⟨s, key, false⟩, ?_, rfl⟩
    rw [hempty before fun e he => hnone e (List.mem_append_left _ he),
      hempty after fun e he => hnone e (List.mem_append_right _ he)]
    rfl

end Manifest

end Hotswap
