import Hotswap.Proofs.TypeName.Name
import Mathlib

/-!
# The grammar of type names

The texts of type names, said as a grammar and not as a scanner:

```text
text   := type blank*
type   := blank* ( "!!" digits | "!" digits | name | name "<" list ">" ) suffix*
suffix := "[]" | "&" | "*"
list   := blank* | type blank* ( "," type blank* )*
```

Digits and names are the longest that stand at their place, so a production looks at what follows.
`TypeAt cs t rest` says that a text of the type `t` stands at the front of `cs` and that `rest`
follows it; the other productions have the same form.

* `TypeAt.exists_text`: brackets are balanced in the text of a type. So where a name could go on
  with a segment there is no argument list, and a segment that never closes is in no text.
* `typeAt_of_read` and `reads_of_derives`: what the scanner reads is derived, and what is derived it
  reads. The one is a recursion on how it was read, the other an induction on the fuel, with a lemma
  for each production.
* `TypeName.parse_eq_ok_iff`: a text is read as a type name exactly if it derives the type name.
-/

namespace Hotswap

/-! ## Productions -/

namespace Grammar

/-- Blanks and nothing else. -/
def Blanks (cs : List Char) : Prop := ∀ c ∈ cs, Text.isBlank c = true

/-- The name of a type, with `rest` behind it. -/
structure IsTypeName (name : String) (rest : List Char) : Prop where
  /-- There is a name. -/
  nonempty : name ≠ ""
  /-- It is not a placeholder. -/
  unmarked : name.toList.head? ≠ some '!'
  /-- It is made of name characters and segments. -/
  text : NameText name.toList
  /-- No longer name stands there. -/
  longest : IsLongest name.toList rest

mutual

/-- A type. -/
inductive TypeAt : List Char → TypeName → List Char → Prop
  /-- Blanks in front are skipped. -/
  | base {blanks cs rest : List Char} {t : TypeName} (hblanks : Blanks blanks)
      (h : BaseAt cs t rest) : TypeAt (blanks ++ cs) t rest
  /-- A suffix is right behind the type it belongs to. -/
  | suffixed {cs rest : List Char} {t : TypeName} {s : Suffix}
      (h : TypeAt cs t (s.text.toList ++ rest)) : TypeAt cs (.suffixed t s) rest

/-- A type without blanks in front and without suffixes. -/
inductive BaseAt : List Char → TypeName → List Char → Prop
  /-- A parameter of the method. -/
  | methodParam {digits rest : List Char} {index : UInt32} (h : IsIndex digits index rest) :
      BaseAt ('!' :: '!' :: (digits ++ rest)) (.methodParam index) rest
  /-- A parameter of the declaring type. -/
  | typeParam {digits rest : List Char} {index : UInt32} (h : IsIndex digits index rest) :
      BaseAt ('!' :: (digits ++ rest)) (.typeParam index) rest
  /-- A name. -/
  | name {name : String} {rest : List Char} (h : IsTypeName name rest) :
      BaseAt (name.toList ++ rest) (.named name []) rest
  /-- A name with a list right behind it. -/
  | applied {name : String} {cs rest : List Char} {args : List TypeName}
      (hname : IsTypeName name ('<' :: cs)) (hargs : ListAt cs args ('>' :: rest)) :
      BaseAt (name.toList ++ '<' :: cs) (.named name args) rest

/-- The arguments between brackets. -/
inductive ListAt : List Char → List TypeName → List Char → Prop
  /-- No arguments. -/
  | blanks {blanks rest : List Char} (h : Blanks blanks) : ListAt (blanks ++ rest) [] rest
  /-- Some arguments. -/
  | items {cs rest : List Char} {ts : List TypeName} (h : ItemsAt cs ts rest) : ListAt cs ts rest

/-- One type or more, with commas between them. -/
inductive ItemsAt : List Char → List TypeName → List Char → Prop
  /-- The last type. -/
  | last {cs blanks rest : List Char} {t : TypeName} (h : TypeAt cs t (blanks ++ rest))
      (hblanks : Blanks blanks) : ItemsAt cs [t] rest
  /-- A type and those behind the comma. -/
  | cons {cs blanks cs' rest : List Char} {t : TypeName} {ts : List TypeName}
      (h : TypeAt cs t (blanks ++ ',' :: cs')) (hblanks : Blanks blanks)
      (hitems : ItemsAt cs' ts rest) : ItemsAt cs (t :: ts) rest

end

/-- **A whole text derives a type name**: nothing but blanks follows the type. -/
def Derives (text : String) (t : TypeName) : Prop :=
  ∃ blanks, TypeAt text.toList t blanks ∧ Blanks blanks

/-! ## The text of a production -/

/-- Characters without brackets are balanced. -/
theorem balanced_of_forall {cs : List Char} (h : ∀ c ∈ cs, c ≠ '<' ∧ c ≠ '>') : Balanced cs := by
  induction cs with
  | nil => exact .nil
  | cons c cs ih =>
    obtain ⟨⟨hopen, hclose⟩, hrest⟩ := List.forall_mem_cons.1 h
    exact .char hopen hclose (ih hrest)

/-- Blanks are. -/
theorem Blanks.balanced {cs : List Char} (h : Blanks cs) : Balanced cs := by
  apply balanced_of_forall
  intro c hc
  have hblank := h c hc
  constructor
  · rintro rfl
    exact absurd hblank (by decide)
  · rintro rfl
    exact absurd hblank (by decide)

/-- The digits of an index are. -/
theorem balanced_of_isIndex {digits rest : List Char} {index : UInt32}
    (h : IsIndex digits index rest) : Balanced digits := by
  apply balanced_of_forall
  intro c hc
  have hdigit := h.digit c hc
  constructor
  · rintro rfl
    exact absurd hdigit (by decide)
  · rintro rfl
    exact absurd hdigit (by decide)

/-- So is a suffix. -/
theorem balanced_suffix (s : Suffix) : Balanced s.text.toList := by
  apply balanced_of_forall
  cases s <;> simp [Suffix.text]

mutual

/-- **Brackets are balanced in the text of a type**, which is not empty. -/
theorem TypeAt.exists_text : {cs rest : List Char} → {t : TypeName} → TypeAt cs t rest →
    ∃ text, cs = text ++ rest ∧ Balanced text ∧ text ≠ []
  | _, _, _, @TypeAt.base blanks _ _ _ hblanks h => by
    obtain ⟨text, rfl, hbalanced, hne⟩ := h.exists_text
    exact ⟨blanks ++ text, by simp, hblanks.balanced.append hbalanced, by simp [hne]⟩
  | _, _, _, @TypeAt.suffixed _ _ _ s h => by
    obtain ⟨text, rfl, hbalanced, hne⟩ := h.exists_text
    exact ⟨text ++ s.text.toList, by simp, hbalanced.append (balanced_suffix s), by simp [hne]⟩

/-- What derives a type without suffixes is a balanced text. -/
theorem BaseAt.exists_text : {cs rest : List Char} → {t : TypeName} → BaseAt cs t rest →
    ∃ text, cs = text ++ rest ∧ Balanced text ∧ text ≠ []
  | _, _, _, @BaseAt.methodParam digits _ _ h =>
    ⟨'!' :: '!' :: digits, rfl, .char (by decide) (by decide) (.char (by decide) (by decide)
      (balanced_of_isIndex h)), by simp⟩
  | _, _, _, @BaseAt.typeParam digits _ _ h =>
    ⟨'!' :: digits, rfl, .char (by decide) (by decide) (balanced_of_isIndex h), by simp⟩
  | _, _, _, @BaseAt.name name _ h =>
    ⟨name.toList, rfl, h.text.balanced, by simpa using h.nonempty⟩
  | _, _, _, @BaseAt.applied name _ _ _ hname hargs => by
    obtain ⟨text, rfl, hbalanced⟩ := hargs.exists_text
    refine ⟨name.toList ++ '<' :: (text ++ ['>']), by simp, ?_, by simp⟩
    exact hname.text.balanced.append (.pair hbalanced .nil)

/-- So is what derives a list. -/
theorem ListAt.exists_text : {cs rest : List Char} → {ts : List TypeName} → ListAt cs ts rest →
    ∃ text, cs = text ++ rest ∧ Balanced text
  | _, _, _, @ListAt.blanks blanks _ h => ⟨blanks, rfl, h.balanced⟩
  | _, _, _, .items h => by
    obtain ⟨text, hcs, hbalanced, -⟩ := h.exists_text
    exact ⟨text, hcs, hbalanced⟩

/-- So is what derives items, of which there is one at least. -/
theorem ItemsAt.exists_text : {cs rest : List Char} → {ts : List TypeName} → ItemsAt cs ts rest →
    ∃ text, cs = text ++ rest ∧ Balanced text ∧ text ≠ []
  | _, _, _, @ItemsAt.last _ blanks _ _ h hblanks => by
    obtain ⟨text, rfl, hbalanced, hne⟩ := h.exists_text
    exact ⟨text ++ blanks, by simp, hbalanced.append hblanks.balanced, by simp [hne]⟩
  | _, _, _, @ItemsAt.cons _ blanks _ _ _ _ h hblanks hitems => by
    obtain ⟨text, rfl, hbalanced, -⟩ := h.exists_text
    obtain ⟨more, rfl, hmore, -⟩ := hitems.exists_text
    refine ⟨text ++ (blanks ++ ',' :: more), by simp, ?_, by simp⟩
    exact hbalanced.append (hblanks.balanced.append (.char (by decide) (by decide) hmore))

end

/-! ### Where a production starts -/

/-- The name of a type is a name. -/
theorem IsTypeName.isName {name : String} {rest : List Char} (h : IsTypeName name rest) :
    IsName name :=
  isName_iff.2 ⟨h.nonempty, h.text⟩

/-- A type without suffixes begins as a name may. -/
theorem BaseAt.head {cs rest : List Char} {t : TypeName} (h : BaseAt cs t rest) :
    ∃ c tail, cs = c :: tail ∧ startsName c = true := by
  have hname : ∀ {name : String} {rest : List Char}, IsTypeName name rest → ∀ behind,
      ∃ c tail, name.toList ++ behind = c :: tail ∧ startsName c = true := by
    intro name rest hname behind
    obtain ⟨c, tail, htail, hc⟩ := hname.isName.head
    exact ⟨c, tail ++ behind, by rw [htail]; rfl, hc⟩
  rcases h with h | h | h | ⟨h, -⟩
  · exact ⟨'!', _, rfl, by decide⟩
  · exact ⟨'!', _, rfl, by decide⟩
  · exact hname h _
  · exact hname h _

/-- Behind its blanks a type starts with what a name can start with. -/
theorem TypeAt.head : {cs rest : List Char} → {t : TypeName} → TypeAt cs t rest →
    ∃ blanks c tail, cs = blanks ++ c :: tail ∧ Blanks blanks ∧ startsName c = true
  | _, _, _, @TypeAt.base blanks _ _ _ hblanks h => by
    obtain ⟨c, tail, rfl, hc⟩ := h.head
    exact ⟨blanks, c, tail, rfl, hblanks, hc⟩
  | _, _, _, .suffixed h => h.head

/-- Items begin so behind blanks. -/
theorem ItemsAt.head {cs rest : List Char} {ts : List TypeName} (h : ItemsAt cs ts rest) :
    ∃ blanks c tail, cs = blanks ++ c :: tail ∧ Blanks blanks ∧ startsName c = true := by
  rcases h with ⟨h, -⟩ | ⟨h, -, -⟩
  · exact h.head
  · exact h.head

/-- A type may have more blanks in front. -/
theorem TypeAt.blanks_append {blanks : List Char} (hblanks : Blanks blanks) :
    {cs rest : List Char} → {t : TypeName} → TypeAt cs t rest → TypeAt (blanks ++ cs) t rest
  | _, _, _, @TypeAt.base blanks' cs _ _ hblanks' h => by
    rw [← List.append_assoc]
    refine .base (fun c hc => ?_) h
    exact (List.mem_append.1 hc).elim (hblanks c) (hblanks' c)
  | _, _, _, .suffixed h => .suffixed (h.blanks_append hblanks)

/-- Blanks may stand in front of items. -/
theorem ItemsAt.blanks_append {blanks cs rest : List Char} {ts : List TypeName}
    (hblanks : Blanks blanks) (h : ItemsAt cs ts rest) : ItemsAt (blanks ++ cs) ts rest := by
  rcases h with ⟨h, hbehind⟩ | ⟨h, hbehind, hitems⟩
  · exact .last (h.blanks_append hblanks) hbehind
  · exact .cons (h.blanks_append hblanks) hbehind hitems

end Grammar

open Grammar

/-! ## Cursors -/

namespace Cursor

/-- What was eaten stood in front. -/
theorem rest_of_eat? {c c' : Cursor} {text : List Char} (h : c.eat? text = some c') :
    c.rest = text ++ c'.rest := by
  unfold eat? at h
  split at h
  · rename_i hprefix
    obtain ⟨rest, hrest⟩ := List.isPrefixOf_iff_prefix.1 hprefix
    simp only [Option.some.injEq] at h
    rw [← h, after, ← hrest, List.drop_left]
  · simp at h

/-- A character that is not taken is not the next one. -/
theorem head_of_eat?_eq_none {c : Cursor} {ch : Char} (h : c.eat? [ch] = none) :
    c.rest.head? ≠ some ch := by
  intro hhead
  obtain ⟨tail, htail⟩ := List.head?_eq_some_iff.1 hhead
  have hat : c.rest = [ch] ++ tail := htail
  rw [eat?_append hat] at h
  simp at h

/-- What is skipped are blanks. -/
theorem exists_blanks (c : Cursor) :
    ∃ blanks, Blanks blanks ∧ c.rest = blanks ++ c.skipBlanks.rest :=
  ⟨c.rest.takeWhile Text.isBlank, fun _ hc => List.mem_takeWhile_imp hc,
    List.takeWhile_append_dropWhile.symm⟩

/-- What is left does not begin with what was dropped. -/
theorem headNot_dropWhile (p : Char → Bool) (cs : List Char) : HeadNot p (cs.dropWhile p) := by
  intro c hc
  have hnot := List.head?_dropWhile_not p cs
  rw [hc] at hnot
  exact hnot

/-- The index of a placeholder is all the digits in front. -/
theorem isIndex_of_digits {c c' : Cursor} {index : UInt32} (h : c.digits = .ok (index, c')) :
    ∃ digits, IsIndex digits index c'.rest ∧ c.rest = digits ++ c'.rest := by
  unfold Cursor.digits at h
  dsimp only at h
  split at h
  · simp at h
  · rename_i hvalue
    simp only [not_or, Nat.not_le] at hvalue
    simp only [Except.ok.injEq, Prod.mk.injEq] at h
    obtain ⟨rfl, rfl⟩ := h
    refine ⟨c.rest.takeWhile Char.isDigit, ⟨?_, ?_, ?_, headNot_dropWhile _ _⟩, ?_⟩
    · simpa using hvalue.1
    · exact fun d hd => List.mem_takeWhile_imp hd
    · exact (UInt32.toNat_ofNat_of_lt hvalue.2).symm
    · exact List.takeWhile_append_dropWhile.symm

/-- A name that is read is the longest one in front. -/
theorem isTypeName_of_name {c c' : Cursor} {name : String} (h : c.name = .ok (name, c'))
    (hmark : c.rest.head? ≠ some '!') :
    IsTypeName name c'.rest ∧ c.rest = name.toList ++ c'.rest := by
  obtain ⟨hname, -, hrest⟩ := isName_of_name h
  obtain ⟨hnonempty, htext⟩ := isName_iff.1 hname
  have htaken : takeName 0 true c.rest = some (name.toList, c'.rest) := by
    unfold Cursor.name at h
    split at h
    · simp at h
    · simp at h
    · rename_i htaken
      simp only [Except.ok.injEq, Prod.mk.injEq] at h
      obtain ⟨rfl, rfl⟩ := h
      simpa [after] using htaken
  refine ⟨⟨hnonempty, fun hfirst => hmark ?_, htext, longest_of_takeName htaken⟩, hrest⟩
  rw [hrest, List.head?_append, hfirst]
  rfl

end Cursor

/-! ## What is read is derived -/

/-- The suffixes that are read belong to the type. -/
theorem typeAt_of_readSuffixes {cs rest : List Char} {t t' : TypeName} {column : Nat} {c : Cursor}
    (h : TypeAt cs t rest) (hread : readSuffixes t rest column = .ok (t', c)) :
    TypeAt cs t' c.rest := by
  fun_induction readSuffixes t rest column with
  | case1 t rest column ih => exact ih (@TypeAt.suffixed cs rest t .array h) hread
  | case2 t rest column ih => exact ih (@TypeAt.suffixed cs rest t .byRef h) hread
  | case3 t rest column ih => exact ih (@TypeAt.suffixed cs rest t .pointer h) hread
  | case4 => simp at hread
  | case5 =>
    simp only [Except.ok.injEq, Prod.mk.injEq] at hread
    obtain ⟨rfl, rfl⟩ := hread
    exact h

mutual

/-- **What is read is derived**: a type, and the types of a list up to the bracket that closes
it. -/
theorem TypeRead.typeAt : {c c' : Cursor} → {t : TypeName} → TypeRead c t c' →
    TypeAt c.rest t c'.rest
  | c, _, _, .suffixes hbase h => by
    obtain ⟨blanks, hblanks, hrest⟩ := c.exists_blanks
    rw [hrest]
    exact typeAt_of_readSuffixes (.base hblanks hbase.baseAt) h

/-- What is read as a type without suffixes derives it. -/
theorem BaseRead.baseAt : {c c' : Cursor} → {t : TypeName} → BaseRead c t c' →
    BaseAt c.rest t c'.rest
  | _, _, _, .methodParam hmarks hdigits => by
    obtain ⟨digits, hindex, hrest⟩ := Cursor.isIndex_of_digits hdigits
    rw [Cursor.rest_of_eat? hmarks, hrest]
    exact .methodParam hindex
  | _, _, _, .typeParam _ hmark hdigits => by
    obtain ⟨digits, hindex, hrest⟩ := Cursor.isIndex_of_digits hdigits
    rw [Cursor.rest_of_eat? hmark, hrest]
    exact .typeParam hindex
  | _, _, _, .name hmark hname _ => by
    obtain ⟨hname, hrest⟩ :=
      Cursor.isTypeName_of_name hname (Cursor.head_of_eat?_eq_none hmark)
    rw [hrest]
    exact .name hname
  | _, _, _, .applied hmark hname hopen hargs => by
    obtain ⟨hname, hrest⟩ :=
      Cursor.isTypeName_of_name hname (Cursor.head_of_eat?_eq_none hmark)
    rw [Cursor.rest_of_eat? hopen] at hname hrest
    rw [hrest]
    exact .applied hname hargs.listAt

/-- What is read as a list derives it. -/
theorem ListRead.listAt : {close : Char} → {c c' : Cursor} → {ts : List TypeName} →
    ListRead close c ts c' → ListAt c.rest ts (close :: c'.rest)
  | _, c, _, _, .blanks hclose => by
    obtain ⟨blanks, hblanks, hrest⟩ := c.exists_blanks
    rw [hrest, Cursor.rest_of_eat? hclose]
    exact .blanks hblanks
  | _, c, _, _, .items _ h => by
    obtain ⟨blanks, hblanks, hrest⟩ := c.exists_blanks
    rw [hrest]
    exact .items (h.itemsAt.blanks_append hblanks)

/-- What is read as items derives them. -/
theorem ItemsRead.itemsAt : {close : Char} → {c c' : Cursor} → {ts : List TypeName} →
    ItemsRead close c ts c' → ItemsAt c.rest ts (close :: c'.rest)
  | _, _, _, _, @ItemsRead.last _ _ c₁ _ _ h _ hclose => by
    obtain ⟨blanks, hblanks, hrest⟩ := c₁.exists_blanks
    have htype := h.typeAt
    rw [hrest, Cursor.rest_of_eat? hclose] at htype
    exact .last htype hblanks
  | _, _, _, _, @ItemsRead.cons _ _ c₁ _ _ _ _ h hcomma hmore => by
    obtain ⟨blanks, hblanks, hrest⟩ := c₁.exists_blanks
    have htype := h.typeAt
    rw [hrest, Cursor.rest_of_eat? hcomma] at htype
    exact .cons htype hblanks hmore.itemsAt

end

/-- **What is read derives what it is read as**, for types and for items. -/
theorem typeAt_of_read (fuel : Nat) :
    (∀ c t c', readType fuel c = .ok (t, c') → TypeAt c.rest t c'.rest) ∧
      ∀ close c ts c', readTypes fuel close c = .ok (ts, c') →
        ItemsAt c.rest ts (close :: c'.rest) :=
  ⟨fun _ _ _ h => (typeRead_of_readType h).typeAt,
    fun _ _ _ _ h => (itemsRead_of_readTypes h).itemsAt⟩

/-! ## What is derived is read -/

/-- A blank is none of the characters that are not blank. -/
theorem isBlank_ne {c d : Char} (hc : Text.isBlank c = true) (hd : Text.isBlank d = false) :
    c ≠ d := by
  rintro rfl
  simp [hc] at hd

/-- Blanks end a type. -/
theorem endsType_blanks_append {blanks rest : List Char} (hblanks : Blanks blanks)
    (h : EndsType rest) : EndsType (blanks ++ rest) := by
  cases blanks with
  | nil => exact h
  | cons c cs =>
    have hc := hblanks c List.mem_cons_self
    have hstarts : startsName c = false := by
      by_contra hstarts
      simp [isBlank_of_startsName (Bool.of_not_eq_false hstarts)] at hc
    apply headNot_cons
    simp [hstarts, isBlank_ne hc (show Text.isBlank '[' = false by decide),
      isBlank_ne hc (show Text.isBlank '&' = false by decide),
      isBlank_ne hc (show Text.isBlank '*' = false by decide)]

/-- Blanks are skipped at once. -/
theorem Cursor.skipBlanks_skipBlanks (c : Cursor) : c.skipBlanks.skipBlanks = c.skipBlanks :=
  skipBlanks_of_headNot (headNot_dropWhile _ _)

/-- Blanks in front of a type make no difference to it. -/
theorem readType_skipBlanks (fuel : Nat) (c : Cursor) :
    readType (fuel + 1) c.skipBlanks = readType (fuel + 1) c := by
  rw [readType, readType, Cursor.skipBlanks_skipBlanks]

/-- Nor do those in front of items. -/
theorem readTypes_skipBlanks (fuel : Nat) (close : Char) (c : Cursor) :
    readTypes (fuel + 2) close c.skipBlanks = readTypes (fuel + 2) close c := by
  rw [readTypes, readTypes, readType_skipBlanks]

/-- A type before the closing bracket is the last of its list. -/
theorem readTypes_last {fuel : Nat} {c : Cursor} {t : TypeName} {blanks behind : List Char}
    {column : Nat} (h : readType fuel c = .ok (t, ⟨blanks ++ '>' :: behind, column⟩))
    (hblanks : Blanks blanks) :
    ∃ column', readTypes (fuel + 1) '>' c = .ok ([t], ⟨behind, column'⟩) := by
  have hskip := @Cursor.skipBlanks_append ⟨blanks ++ '>' :: behind, column⟩ blanks ('>' :: behind)
    rfl hblanks (headNot_cons (by decide))
  rw [readTypes, h, ok_bind]
  dsimp only
  rw [hskip, Cursor.eat?_of_head (by simp [Cursor.after]), Cursor.eat?_append rfl]
  exact ⟨_, rfl⟩

/-- The other types of a list are behind the comma. -/
theorem readTypes_comma {fuel : Nat} {c : Cursor} {t : TypeName} {blanks cs : List Char}
    {column : Nat} (h : readType fuel c = .ok (t, ⟨blanks ++ ',' :: cs, column⟩))
    (hblanks : Blanks blanks) :
    ∃ c', c'.rest = cs ∧
      readTypes (fuel + 1) '>' c = readTypes fuel '>' c' >>= fun (ts, c) => .ok (t :: ts, c) := by
  have hskip := @Cursor.skipBlanks_append ⟨blanks ++ ',' :: cs, column⟩ blanks (',' :: cs) rfl
    hblanks (headNot_cons (by decide))
  rw [readTypes, h, ok_bind]
  dsimp only
  rw [hskip, Cursor.eat?_append rfl]
  exact ⟨_, rfl, rfl⟩

/-- Types that the fuel suffices for are read. What follows a type is left to the reader of
suffixes, so that a suffixed type is the case of its element. -/
def ReadsType (fuel : Nat) : Prop :=
  ∀ cs t rest, TypeAt cs t rest → EndsName rest → 2 * cs.length ≤ fuel + 2 * rest.length →
    ∀ c : Cursor, c.rest = cs → ∃ column, readType fuel c = readSuffixes t rest column

/-- Lists that the fuel suffices for are read, up to the bracket that closes them. -/
def ReadsItems (fuel : Nat) : Prop :=
  ∀ cs ts behind, ItemsAt cs ts ('>' :: behind) → 2 * cs.length < fuel + 2 * behind.length + 2 →
    ∀ c : Cursor, c.rest = cs → ∃ column, readTypes fuel '>' c = .ok (ts, ⟨behind, column⟩)

/-- A name is read as a named type, where no argument list opens. -/
theorem readType_plain {fuel : Nat} {c : Cursor} {name : String} {rest : List Char}
    (h : IsTypeName name rest) (hends : EndsName rest) (hrest : c.rest = name.toList ++ rest) :
    ∃ column, readType (fuel + 1) c = readSuffixes (.named name []) rest column := by
  have hopen : (c.after name.toList rest).rest.head? ≠ some '<' := by
    intro hhead
    exact absurd (hends '<' hhead) (by decide)
  have htaken := takeName_of_isLongest h.text h.longest (.inl hends)
  refine ⟨(c.after name.toList rest).column, ?_⟩
  rw [readType_name h.isName h.unmarked hrest htaken, Cursor.eat?_of_head hopen]

/-- The arguments of a list are read: there are none before the closing bracket, or some. -/
theorem Grammar.ListAt.read {fuel : Nat} (ih : ReadsItems fuel) {cs behind : List Char}
    {ts : List TypeName} (h : ListAt cs ts ('>' :: behind))
    (hfuel : 2 * cs.length < fuel + 2 * behind.length + 2) {c : Cursor} (hrest : c.rest = cs) :
    ∃ column, (c.skipBlanks.eat? ['>'] = some ⟨behind, column⟩ ∧ ts = []) ∨
      (c.skipBlanks.eat? ['>'] = none ∧
        readTypes fuel '>' c.skipBlanks = .ok (ts, ⟨behind, column⟩)) := by
  rcases h with hblanks | hitems
  · rw [Cursor.skipBlanks_append hrest hblanks (headNot_cons (by decide)), Cursor.eat?_append rfl]
    exact ⟨_, .inl ⟨rfl, rfl⟩⟩
  · obtain ⟨blanks, first, tail, hhead, hblanks, hfirst⟩ := hitems.head
    have hskip : c.skipBlanks = c.after blanks (first :: tail) :=
      Cursor.skipBlanks_append (hrest.trans hhead) hblanks
        (headNot_cons (isBlank_of_startsName hfirst))
    have hother : c.skipBlanks.rest.head? ≠ some '>' := by
      rw [hskip]
      intro heq
      obtain rfl : first = '>' := by simpa [Cursor.after] using heq
      exact absurd hfirst (by decide)
    obtain ⟨column, hread⟩ := ih cs ts behind hitems hfuel c hrest
    refine ⟨column, .inr ⟨Cursor.eat?_of_head hother, ?_⟩⟩
    obtain ⟨text, htext, -, hne⟩ := hitems.exists_text
    have hpositive : 0 < text.length := List.length_pos_iff.2 hne
    have hlength := congrArg List.length htext
    simp only [List.length_append, List.length_cons] at hlength
    obtain ⟨fuel, rfl⟩ : ∃ n, fuel = n + 2 := ⟨fuel - 2, by omega⟩
    rw [readTypes_skipBlanks, hread]

/-- A name with a list behind it is read. -/
theorem readType_applied {fuel : Nat} (ih : ReadsItems fuel) {c : Cursor} {name : String}
    {cs rest : List Char} {args : List TypeName} (hname : IsTypeName name ('<' :: cs))
    (hargs : ListAt cs args ('>' :: rest))
    (hfuel : 2 * (name.toList ++ '<' :: cs).length ≤ fuel + 1 + 2 * rest.length)
    (hrest : c.rest = name.toList ++ '<' :: cs) :
    ∃ column, readType (fuel + 1) c = readSuffixes (.named name args) rest column := by
  -- The brackets of the list are balanced, so they are not a segment of the name.
  obtain ⟨text, htext, hbalanced⟩ := hargs.exists_text
  have htaken := takeName_of_isLongest hname.text hname.longest
    (.inr ⟨text, rest, hbalanced, by rw [htext]⟩)
  have hopen : (c.after name.toList ('<' :: cs)).eat? ['<'] =
      some ((c.after name.toList ('<' :: cs)).after ['<'] cs) := Cursor.eat?_append rfl
  have hfuel' : 2 * cs.length < fuel + 2 * rest.length + 2 := by
    simp only [List.length_append, List.length_cons] at hfuel
    omega
  rw [readType_name hname.isName hname.unmarked hrest htaken, hopen]
  dsimp only
  obtain ⟨column, ⟨hclose, rfl⟩ | ⟨hclose, hread⟩⟩ :=
    hargs.read ih hfuel' (c := (c.after name.toList ('<' :: cs)).after ['<'] cs) rfl
  · exact ⟨column, by rw [hclose]⟩
  · refine ⟨column, ?_⟩
    rw [hclose]
    dsimp only
    rw [hread]
    rfl

/-- What derives a type without suffixes is read as it, and then suffixes are read. -/
theorem Grammar.BaseAt.read {fuel : Nat} (ih : ReadsItems fuel) {cs rest : List Char} {t : TypeName}
    (h : BaseAt cs t rest) (hends : EndsName rest)
    (hfuel : 2 * cs.length ≤ fuel + 1 + 2 * rest.length) {c : Cursor} (hrest : c.rest = cs) :
    ∃ column, readType (fuel + 1) c = readSuffixes t rest column := by
  rcases h with hindex | hindex | hname | ⟨hname, hargs⟩
  · exact ⟨_, readType_methodParam hindex hrest⟩
  · exact ⟨_, readType_typeParam hindex hrest⟩
  · exact readType_plain hname hends hrest
  · exact readType_applied ih hname hargs hfuel hrest

/-- A type is read if its base is, behind the blanks and before the suffixes. -/
theorem Grammar.TypeAt.read {fuel : Nat} (ih : ReadsItems fuel) {c : Cursor} :
    {cs rest : List Char} → {t : TypeName} → TypeAt cs t rest → EndsName rest →
    2 * cs.length ≤ fuel + 1 + 2 * rest.length → c.rest = cs →
    ∃ column, readType (fuel + 1) c = readSuffixes t rest column
  | _, _, _, @TypeAt.base blanks cs rest t hblanks h, hends, hfuel, hrest => by
    obtain ⟨first, tail, hhead, hfirst⟩ := h.head
    have hskip : c.skipBlanks = c.after blanks cs := by
      refine Cursor.skipBlanks_append hrest hblanks ?_
      rw [hhead]
      exact headNot_cons (isBlank_of_startsName hfirst)
    rw [List.length_append] at hfuel
    rw [← readType_skipBlanks, hskip]
    exact h.read ih hends (by omega) rfl
  | _, _, _, @TypeAt.suffixed cs rest t s h, hends, hfuel, hrest => by
    have hfuel' : 2 * cs.length ≤ fuel + 1 + 2 * (s.text.toList ++ rest).length := by
      rw [List.length_append]
      omega
    obtain ⟨column, hread⟩ := h.read ih (endsName_suffix s rest) hfuel' hrest
    exact ⟨_, hread.trans (readSuffixes_suffix t s rest column)⟩

/-- A list is read if its first type is and the others are. -/
theorem Grammar.ItemsAt.read {fuel : Nat} (ihType : ReadsType fuel) (ih : ReadsItems fuel)
    {cs behind : List Char} {ts : List TypeName} (h : ItemsAt cs ts ('>' :: behind))
    (hfuel : 2 * cs.length < fuel + 1 + 2 * behind.length + 2) {c : Cursor} (hrest : c.rest = cs) :
    ∃ column, readTypes (fuel + 1) '>' c = .ok (ts, ⟨behind, column⟩) := by
  rcases h with @⟨_, blanks, _, t, htype, hblanks⟩ |
    @⟨_, blanks, cs', _, t, ts, htype, hblanks, hmore⟩
  · have hends : EndsType (blanks ++ '>' :: behind) :=
      endsType_blanks_append hblanks (headNot_cons (by decide))
    have hfuel' : 2 * cs.length ≤ fuel + 2 * (blanks ++ '>' :: behind).length := by
      simp only [List.length_append, List.length_cons]
      omega
    obtain ⟨column, hread⟩ := ihType _ _ _ htype hends.endsName hfuel' c hrest
    rw [readSuffixes_of_endsType column hends] at hread
    exact readTypes_last hread hblanks
  · have hends : EndsType (blanks ++ ',' :: cs') :=
      endsType_blanks_append hblanks (headNot_cons (by decide))
    obtain ⟨text, htext, -, hne⟩ := htype.exists_text
    obtain ⟨more, hcs', -, -⟩ := hmore.exists_text
    have hpositive : 0 < text.length := List.length_pos_iff.2 hne
    have hlength := congrArg List.length htext
    have hlength' := congrArg List.length hcs'
    simp only [List.length_append, List.length_cons] at hlength hlength'
    have hfuel' : 2 * cs.length ≤ fuel + 2 * (blanks ++ ',' :: cs').length := by
      simp only [List.length_append, List.length_cons]
      omega
    obtain ⟨column, hread⟩ := ihType _ _ _ htype hends.endsName hfuel' c hrest
    rw [readSuffixes_of_endsType column hends] at hread
    obtain ⟨c', hc', hcomma⟩ := readTypes_comma hread hblanks
    obtain ⟨column', hitems⟩ := ih _ _ _ hmore (by omega) c' hc'
    refine ⟨column', ?_⟩
    rw [hcomma, hitems]
    rfl

/-- **What is derived is read**, if the fuel suffices for the length of its text. -/
theorem reads_of_derives (fuel : Nat) : ReadsType fuel ∧ ReadsItems fuel := by
  induction fuel with
  | zero =>
    constructor
    · intro cs t rest h _ hfuel
      obtain ⟨text, rfl, -, hne⟩ := h.exists_text
      have hpositive : 0 < text.length := List.length_pos_iff.2 hne
      rw [List.length_append] at hfuel
      omega
    · intro cs ts behind h hfuel
      obtain ⟨text, rfl, -, hne⟩ := h.exists_text
      have hpositive : 0 < text.length := List.length_pos_iff.2 hne
      simp only [List.length_append, List.length_cons] at hfuel
      omega
  | succ fuel ih =>
    obtain ⟨ihType, ihItems⟩ := ih
    constructor
    · intro cs t rest h hends hfuel c hrest
      exact h.read ihItems hends hfuel hrest
    · intro cs ts behind h hfuel c hrest
      exact h.read ihType ihItems hfuel hrest

/-! ## Whole texts -/

/-- Blanks may stand at the end. -/
theorem Cursor.finish_of_blanks {c : Cursor} (h : Blanks c.rest) : c.finish = .ok () := by
  have hskip : c.skipBlanks = c.after c.rest [] :=
    skipBlanks_append (List.append_nil _).symm h (headNot_nil _)
  unfold Cursor.finish
  rw [hskip]
  simp [after]

/-- Nothing else may. -/
theorem Cursor.blanks_of_finish {c : Cursor} {u : Unit} (h : c.finish = .ok u) :
    Blanks c.rest := by
  obtain ⟨blanks, hblanks, hrest⟩ := c.exists_blanks
  unfold Cursor.finish at h
  dsimp only at h
  split at h
  · rename_i hempty
    rw [hrest, List.isEmpty_iff.1 hempty, List.append_nil]
    exact hblanks
  · simp at h

namespace TypeName

/-- A text is parsed as a type exactly if it is scanned as one. -/
theorem parse_eq_ok_iff_scan {text : String} {t : TypeName} :
    TypeName.parse text = .ok t ↔ TypeName.scan text = .ok t := by
  unfold TypeName.parse
  split
  · rename_i hscan
    simp [hscan]
  · rename_i hscan
    simp [hscan]

/-- **A text is read as a type name exactly if it derives the type name.** -/
theorem parse_eq_ok_iff (text : String) (t : TypeName) :
    TypeName.parse text = .ok t ↔ Derives text t := by
  rw [parse_eq_ok_iff_scan]
  unfold TypeName.scan Derives
  constructor
  · intro h
    obtain ⟨⟨t', c⟩, htype, h⟩ := bind_eq_ok.1 h
    obtain ⟨u, hfinish, h⟩ := bind_eq_ok.1 h
    simp only [pure, Except.pure, Except.ok.injEq] at h
    subst h
    exact ⟨c.rest, (typeAt_of_read _).1 _ _ _ htype, Cursor.blanks_of_finish hfinish⟩
  · rintro ⟨blanks, htype, hblanks⟩
    have hends : EndsType blanks := by
      simpa using endsType_blanks_append hblanks (headNot_nil _)
    have hfuel : 2 * text.toList.length ≤ (Cursor.ofString text).fuel + 2 * blanks.length := by
      unfold Cursor.fuel Cursor.ofString
      dsimp only
      omega
    obtain ⟨column, hread⟩ :=
      (reads_of_derives _).1 _ _ _ htype hends.endsName hfuel (Cursor.ofString text) rfl
    rw [readSuffixes_of_endsType column hends] at hread
    rw [Cursor.type, hread, ok_bind]
    dsimp only
    rw [Cursor.finish_of_blanks hblanks]
    rfl

end TypeName

end Hotswap
