import Hotswap.Proofs.Decimal.Digits
import Hotswap.Proofs.TypeName.Readings

/-!
# Reading what is written

The text of a type name is read as that type name, whatever follows the text that does not go on
with a name. This holds of the type names that can be read at all, which `TypeName.WellFormed`
describes: their names are what the scanner takes for a name, do not start with a placeholder, and
end where an argument list can open if there are arguments.

* `TypeName.wellFormed_of_parse`: whatever is read is well formed.
* `readType_render`, `readTypes_render`: the text of a well-formed type name, or of a list of them,
  is read as such.
-/

namespace Hotswap

/-! ## Cursors -/

/-- The bytes of two pieces are those of each. -/
theorem byteCount_append (as bs : List Char) :
    byteCount (as ++ bs) = byteCount as + byteCount bs := by
  induction as with
  | nil => simp [byteCount]
  | cons c cs ih =>
    simp only [byteCount, List.cons_append, List.foldr_cons] at ih ⊢
    omega

namespace Cursor

/-- Going over two pieces is going over both. -/
theorem after_after (c : Cursor) (as bs r s : List Char) :
    (c.after as r).after bs s = c.after (as ++ bs) s := by
  simp only [after, byteCount_append, Nat.add_assoc]

/-- Blanks are skipped up to a character that is none. -/
theorem skipBlanks_append {c : Cursor} {blanks rest : List Char} (hrest : c.rest = blanks ++ rest)
    (hblanks : ∀ ch ∈ blanks, Text.isBlank ch = true) (h : HeadNot Text.isBlank rest) :
    c.skipBlanks = c.after blanks rest := by
  rw [skipBlanks, hrest, takeWhile_append_of_headNot hblanks h,
    dropWhile_append_of_headNot hblanks h]

/-- There are no blanks to skip in front of a character that is none. -/
theorem skipBlanks_of_headNot {c : Cursor} (h : HeadNot Text.isBlank c.rest) :
    c.skipBlanks = c :=
  skipBlanks_append (List.nil_append _).symm (fun _ hch => nomatch hch) h

/-- A text that stands in front is eaten. -/
theorem eat?_append {c : Cursor} {text rest : List Char} (h : c.rest = text ++ rest) :
    c.eat? text = some (c.after text rest) := by
  unfold eat?
  rw [h, if_pos (List.isPrefixOf_iff_prefix.2 (List.prefix_append text rest)),
    List.drop_left]

/-- A character is eaten exactly if it is in front. -/
theorem head_of_eat? {c c' : Cursor} {ch : Char} (h : c.eat? [ch] = some c') :
    c.rest.head? = some ch := by
  unfold eat? at h
  split at h
  · rename_i hprefix
    obtain ⟨rest, hrest⟩ := List.isPrefixOf_iff_prefix.1 hprefix
    rw [← hrest]
    rfl
  · cases h

/-- A text is not eaten if another character is in front. -/
theorem eat?_of_head {c : Cursor} {ch : Char} {text : List Char} (h : c.rest.head? ≠ some ch) :
    c.eat? (ch :: text) = none := by
  unfold eat?
  rw [if_neg]
  intro hprefix
  obtain ⟨rest, hrest⟩ := List.isPrefixOf_iff_prefix.1 hprefix
  rw [← hrest] at h
  exact h rfl

end Cursor

/-! ## Names -/

/-- Whether a name can start with a character. -/
def startsName (c : Char) : Bool := isNameChar c || c == '<'

/-- No name goes on here. -/
def EndsName (rest : List Char) : Prop := HeadNot startsName rest

/-- Where a name ends nothing more of it is taken. -/
theorem takeName_of_endsName {rest : List Char} (fresh : Bool) (h : EndsName rest) :
    takeName 0 fresh rest = some ([], rest) := by
  cases rest with
  | nil => rfl
  | cons c cs =>
    have hc := h c rfl
    simp only [startsName, Bool.or_eq_false_iff, beq_eq_false_iff_ne] at hc
    simp [takeName, hc.1, hc.2]

/-- **A name ends where it ended before**, if what follows it now does not go on with a name, or if
an argument list opens after it as one did before. -/
theorem takeName_append {depth : Nat} {fresh : Bool} {cs name rest : List Char}
    (h : takeName depth fresh cs = some (name, rest)) {rest' : List Char}
    (hrest : EndsName rest' ∨ rest.head? = some '<' ∧ rest'.head? = some '<') :
    takeName depth fresh (name ++ rest') = some (name, rest') := by
  fun_induction takeName depth fresh cs generalizing name rest with
  | case1 fresh =>
    cases h
    rcases hrest with hrest | ⟨hrest, -⟩
    · exact takeName_of_endsName fresh hrest
    · cases hrest
  | case2 => cases h
  | case3 fresh c cs hopen ih =>
    obtain ⟨⟨name₁, rest₁⟩, hname, heq⟩ := Option.map_eq_some_iff.1 h
    cases heq
    have hrec := ih hname hrest
    simp [takeName, hopen, hrec]
  | case4 fresh c cs hopen hchar ih =>
    obtain ⟨⟨name₁, rest₁⟩, hname, heq⟩ := Option.map_eq_some_iff.1 h
    cases heq
    have hrec := ih hname hrest
    simp [takeName, hopen, hchar, hrec]
  | case5 fresh c cs hopen hchar =>
    cases h
    rcases hrest with hrest | ⟨hrest, hrest'⟩
    · exact takeName_of_endsName fresh hrest
    · -- An argument list can only have opened here because no segment could.
      cases hrest
      obtain ⟨tail, rfl⟩ := List.head?_eq_some_iff.1 hrest'
      have hfresh : fresh = false := by simpa using hopen
      simp [takeName, hfresh, hchar]
  | case6 fresh depth c cs depth' =>
    rename_i ih
    obtain ⟨⟨name₁, rest₁⟩, hname, heq⟩ := Option.map_eq_some_iff.1 h
    cases heq
    have hrec : takeName depth' false (name₁ ++ rest') = some (name₁, rest') := ih hname hrest
    show (takeName depth' false (name₁ ++ rest')).map _ = _
    rw [hrec]
    rfl

/-- A name and what follows it are the whole text. -/
theorem takeName_eq {depth : Nat} {fresh : Bool} {cs name rest : List Char}
    (h : takeName depth fresh cs = some (name, rest)) : cs = name ++ rest := by
  fun_induction takeName depth fresh cs generalizing name rest with
  | case1 fresh =>
    cases h
    rfl
  | case2 => cases h
  | case3 fresh c cs hopen ih =>
    obtain ⟨⟨name₁, rest₁⟩, hname, heq⟩ := Option.map_eq_some_iff.1 h
    cases heq
    rw [ih hname, List.cons_append]
  | case4 fresh c cs hopen hchar ih =>
    obtain ⟨⟨name₁, rest₁⟩, hname, heq⟩ := Option.map_eq_some_iff.1 h
    cases heq
    rw [ih hname, List.cons_append]
  | case5 fresh c cs hopen hchar =>
    cases h
    rfl
  | case6 fresh depth c cs depth' =>
    rename_i ih
    obtain ⟨⟨name₁, rest₁⟩, hname, heq⟩ := Option.map_eq_some_iff.1 h
    cases heq
    rw [ih hname, List.cons_append]

/-- A text that is read as a name, up to where no name goes on. -/
structure IsName (name : String) : Prop where
  /-- There is a name. -/
  nonempty : name.toList ≠ []
  /-- The name is split off. -/
  taken : ∀ rest, EndsName rest → takeName 0 true (name.toList ++ rest) = some (name.toList, rest)

/-- A name after which an argument list can open. -/
def OpensArgs (name : String) : Prop :=
  ∀ rest, takeName 0 true (name.toList ++ '<' :: rest) = some (name.toList, '<' :: rest)

/-- A name begins with a character that may begin one. -/
theorem IsName.head {name : String} (h : IsName name) :
    ∃ c cs, name.toList = c :: cs ∧ startsName c = true := by
  have htaken := h.taken [] (headNot_nil _)
  rw [List.append_nil] at htaken
  obtain ⟨c, cs, hcs⟩ := List.exists_cons_of_ne_nil h.nonempty
  refine ⟨c, cs, hcs, ?_⟩
  rw [hcs, takeName] at htaken
  split at htaken
  · rename_i hopen
    simp [startsName, hopen.1]
  · split at htaken
    · rename_i hchar
      simp [startsName, hchar]
    · cases htaken

/-- Such a character is not blank. -/
theorem isBlank_of_startsName {c : Char} (h : startsName c = true) : Text.isBlank c = false := by
  rw [startsName, Bool.or_eq_true] at h
  rcases h with h | h
  · rw [isNameChar, Bool.and_eq_true] at h
    simpa using h.1
  · rw [eq_of_beq h]
    decide

namespace Cursor

/-- A name is read off the front. -/
theorem name_eq {c : Cursor} {name : String} {rest : List Char} (h : IsName name)
    (hrest : c.rest = name.toList ++ rest)
    (htaken : takeName 0 true (name.toList ++ rest) = some (name.toList, rest)) :
    c.name = .ok (name, c.after name.toList rest) := by
  unfold Cursor.name
  rw [hrest]
  split
  · rename_i hnone
    rw [htaken] at hnone
    cases hnone
  · rename_i hnil
    rw [htaken] at hnil
    exact absurd (congrArg Prod.fst (Option.some.inj hnil)) h.nonempty
  · rename_i hsome
    rw [htaken] at hsome
    cases hsome
    rw [String.ofList_toList]

/-- Whatever is read as a name is one. -/
theorem isName_of_name {c c' : Cursor} {name : String} (h : c.name = .ok (name, c')) :
    IsName name ∧ (c'.rest.head? = some '<' → OpensArgs name) ∧
      c.rest = name.toList ++ c'.rest := by
  unfold Cursor.name at h
  split at h
  · cases h
  · cases h
  · rename_i taken rest hnil htaken
    cases h
    refine ⟨⟨?_, fun rest' hrest' => ?_⟩, fun hopen rest' => ?_, ?_⟩
    · rw [String.toList_ofList]
      rintro rfl
      exact hnil rfl
    · rw [String.toList_ofList]
      exact takeName_append htaken (.inl hrest')
    · rw [String.toList_ofList]
      exact takeName_append htaken (.inr ⟨hopen, rfl⟩)
    · rw [String.toList_ofList]
      exact takeName_eq htaken

end Cursor

/-! ## Well-formed type names -/

namespace TypeName

mutual

/-- A type name that can be read. -/
def WellFormed : TypeName → Prop
  | .named name args =>
    IsName name ∧ name.toList.head? ≠ some '!' ∧ (args ≠ [] → OpensArgs name) ∧ AllWellFormed args
  | .typeParam _ | .methodParam _ => True
  | .suffixed element _ => element.WellFormed

/-- Type names that can be read. -/
def AllWellFormed : List TypeName → Prop
  | [] => True
  | t :: rest => t.WellFormed ∧ AllWellFormed rest

end

end TypeName

/-! ### Whatever is read is well formed -/

/-- Suffixes keep a type well formed. -/
theorem wellFormed_of_readSuffixes {t t' : TypeName} {cs : List Char} {column : Nat} {c : Cursor}
    (h : readSuffixes t cs column = .ok (t', c)) (ht : t.WellFormed) : t'.WellFormed := by
  fun_induction readSuffixes t cs column with
  | case1 t rest column ih => exact ih h ht
  | case2 t rest column ih => exact ih h ht
  | case3 t rest column ih => exact ih h ht
  | case4 => cases h
  | case5 =>
    cases h
    exact ht

/-- A name that does not follow a mark does not start with one. -/
theorem Cursor.head_ne_of_name {c c' : Cursor} {name : String} (hmark : c.eat? ['!'] = none)
    (hname : c.name = .ok (name, c')) : name.toList.head? ≠ some '!' := by
  intro hhead
  obtain ⟨tail, htail⟩ := List.head?_eq_some_iff.1 hhead
  have hat : c.rest = ['!'] ++ (tail ++ c'.rest) := by
    rw [(Cursor.isName_of_name hname).2.2, htail]
    rfl
  rw [Cursor.eat?_append hat] at hmark
  cases hmark

mutual

/-- **A type that is read is well formed**, and so are the types of a list. -/
theorem TypeRead.wellFormed : {c c' : Cursor} → {t : TypeName} → TypeRead c t c' → t.WellFormed
  | _, _, _, .suffixes hbase h => wellFormed_of_readSuffixes h hbase.wellFormed

/-- A type without suffixes that is read is well formed. -/
theorem BaseRead.wellFormed : {c c' : Cursor} → {t : TypeName} → BaseRead c t c' → t.WellFormed
  | _, _, _, .methodParam .. => trivial
  | _, _, _, .typeParam .. => trivial
  | _, _, _, .name hmark hname _ =>
    ⟨(Cursor.isName_of_name hname).1, Cursor.head_ne_of_name hmark hname, fun hne => absurd rfl hne,
      trivial⟩
  | _, _, _, .applied hmark hname hopen hargs => by
    obtain ⟨hisName, hopens, -⟩ := Cursor.isName_of_name hname
    exact ⟨hisName, Cursor.head_ne_of_name hmark hname,
      fun _ => hopens (Cursor.head_of_eat? hopen), hargs.wellFormed⟩

/-- So are the types of a list. -/
theorem ListRead.wellFormed : {close : Char} → {c c' : Cursor} → {ts : List TypeName} →
    ListRead close c ts c' → TypeName.AllWellFormed ts
  | _, _, _, _, .blanks _ => trivial
  | _, _, _, _, .items _ h => h.wellFormed

/-- So are those of items. -/
theorem ItemsRead.wellFormed : {close : Char} → {c c' : Cursor} → {ts : List TypeName} →
    ItemsRead close c ts c' → TypeName.AllWellFormed ts
  | _, _, _, _, .last h _ _ => ⟨h.wellFormed, trivial⟩
  | _, _, _, _, .cons h _ hrest => ⟨h.wellFormed, hrest.wellFormed⟩

end

/-! ## Reading the text of a type name -/

/-- A type ends here: neither a name nor a suffix goes on. -/
def EndsType (rest : List Char) : Prop :=
  HeadNot (fun c => startsName c || c == '[' || c == '&' || c == '*') rest

/-- Where a type ends a name ends. -/
theorem EndsType.endsName {rest : List Char} (h : EndsType rest) : EndsName rest := by
  intro c hc
  have hboth := h c hc
  simp only [Bool.or_eq_false_iff] at hboth
  exact hboth.1.1.1

/-- Where a type ends no suffix is read. -/
theorem readSuffixes_of_endsType {t : TypeName} {rest : List Char} (column : Nat)
    (h : EndsType rest) : readSuffixes t rest column = .ok (t, ⟨rest, column⟩) := by
  cases rest with
  | nil => rfl
  | cons c cs =>
    have hc := h c rfl
    simp only [Bool.or_eq_false_iff, beq_eq_false_iff_ne] at hc
    obtain ⟨⟨⟨-, hbracket⟩, hamp⟩, hstar⟩ := hc
    unfold readSuffixes
    split
    · rename_i heq
      cases heq
      exact absurd rfl hbracket
    · rename_i heq
      cases heq
      exact absurd rfl hamp
    · rename_i heq
      cases heq
      exact absurd rfl hstar
    · rename_i heq
      cases heq
      exact absurd rfl hbracket
    · rfl

/-- A suffix ends a name. -/
theorem endsName_suffix (s : Suffix) (rest : List Char) : EndsName (s.text.toList ++ rest) := by
  cases s <;> exact headNot_cons (by decide)

/-- The characters of a suffix make the suffixed type. -/
theorem readSuffixes_suffix (t : TypeName) (s : Suffix) (rest : List Char) (column : Nat) :
    readSuffixes t (s.text.toList ++ rest) column =
      readSuffixes (.suffixed t s) rest (column + byteCount s.text.toList) := by
  cases s <;> rfl

/-- The text of a type begins as a name may. -/
theorem TypeName.head_render : (t : TypeName) → t.WellFormed →
    ∃ c cs, t.render.toList = c :: cs ∧ startsName c = true
  | .named name [], h => by
    obtain ⟨c, cs, hcs, hc⟩ := h.1.head
    exact ⟨c, cs, by rw [render, hcs], hc⟩
  | .named name (t :: rest), h => by
    obtain ⟨c, cs, hcs, hc⟩ := h.1.head
    refine ⟨c, cs ++ ("<" ++ t.render ++ renderTail rest ++ ">").toList, ?_, hc⟩
    simp [render, hcs]
  | .typeParam index, _ => ⟨'!', (Nat.repr index.toNat).toList, by simp [render], by decide⟩
  | .methodParam index, _ =>
    ⟨'!', '!' :: (Nat.repr index.toNat).toList, by simp [render], by decide⟩
  | .suffixed element suffix, h => by
    obtain ⟨c, cs, hcs, hc⟩ := head_render element h
    exact ⟨c, cs ++ suffix.text.toList, by simp [render, hcs], hc⟩

/-- So does the text of a list with a type in it. -/
theorem TypeName.head_renderList {ts : List TypeName} (hne : ts ≠ []) (h : AllWellFormed ts) :
    ∃ c cs, (renderList ts).toList = c :: cs ∧ startsName c = true := by
  obtain ⟨t, rest, rfl⟩ := List.exists_cons_of_ne_nil hne
  obtain ⟨c, cs, hcs, hc⟩ := t.head_render h.1
  exact ⟨c, cs ++ (renderTail rest).toList, by simp [renderList, hcs], hc⟩

/-- There are no blanks in front of what a name can start with. -/
theorem Cursor.skipBlanks_of_startsName {c : Cursor} {ch : Char} {cs : List Char}
    (hrest : c.rest = ch :: cs) (h : startsName ch = true) : c.skipBlanks = c := by
  refine skipBlanks_of_headNot ?_
  rw [hrest]
  exact headNot_cons (isBlank_of_startsName h)

/-- A digit may be part of a name. -/
theorem isNameChar_of_isDigit {c : Char} (h : c.isDigit = true) : isNameChar c = true := by
  obtain ⟨hlow, hhigh⟩ := Decimal.toNat_of_isDigit h
  have hne : ∀ d : Char, d.toNat < 48 ∨ 57 < d.toNat → c ≠ d := by
    rintro d hd rfl
    omega
  have hblank : Text.isBlank c = false := by
    simp only [Text.isBlank, Bool.or_eq_false_iff, Bool.and_eq_false_iff,
      decide_eq_false_iff_not, beq_eq_false_iff_ne]
    omega
  simp [isNameChar, hblank, hne]

/-- The digits of an index, with `rest` behind them. An index has 32 bits, so their value is below
`2 ^ 32`. -/
structure IsIndex (digits : List Char) (index : UInt32) (rest : List Char) : Prop where
  /-- There is a digit. -/
  nonempty : digits ≠ []
  /-- There are only digits. -/
  digit : ∀ c ∈ digits, c.isDigit = true
  /-- Their value is the index. -/
  value : Decimal.natOfDigits digits = index.toNat
  /-- No digit is left behind them. -/
  longest : HeadNot Char.isDigit rest

/-- The text of an index is one, where no name goes on. -/
theorem isIndex_repr {index : UInt32} {rest : List Char} (h : EndsName rest) :
    IsIndex (Nat.repr index.toNat).toList index rest := by
  rw [Nat.toList_repr]
  refine ⟨Nat.toDigits_ne_nil, fun d hd => Decimal.isDigit_of_mem_toDigits hd,
    Decimal.natOfDigits_toDigits _, fun d hd => ?_⟩
  have hname := h d hd
  simp only [startsName, Bool.or_eq_false_iff] at hname
  by_contra hdigit
  rw [isNameChar_of_isDigit (Bool.of_not_eq_false hdigit)] at hname
  cases hname.1

/-- The number of a placeholder is read. -/
theorem Cursor.digits_of_isIndex {c : Cursor} {digits rest : List Char} {index : UInt32}
    (h : IsIndex digits index rest) (hrest : c.rest = digits ++ rest) :
    c.digits = .ok (index, c.after digits rest) := by
  have hlt : index.toNat < UInt32.size := index.toNat_lt
  unfold Cursor.digits
  simp only [hrest, takeWhile_append_of_headNot h.digit h.longest,
    dropWhile_append_of_headNot h.digit h.longest, h.value]
  rw [if_neg, UInt32.ofNat_toNat]
  simpa [h.nonempty] using hlt

/-- A parameter of the method is read. -/
theorem readType_methodParam {fuel : Nat} {c : Cursor} {digits rest : List Char} {index : UInt32}
    (h : IsIndex digits index rest) (hrest : c.rest = ['!', '!'] ++ (digits ++ rest)) :
    readType (fuel + 1) c =
      readSuffixes (.methodParam index) rest (c.after (['!', '!'] ++ digits) rest).column := by
  have hblank : c.skipBlanks = c := Cursor.skipBlanks_of_startsName hrest (by decide)
  rw [readType]
  dsimp only
  rw [hblank, Cursor.eat?_append hrest]
  dsimp only
  rw [Cursor.digits_of_isIndex h rfl, Cursor.after_after]
  rfl

/-- A parameter of the declaring type is read. -/
theorem readType_typeParam {fuel : Nat} {c : Cursor} {digits rest : List Char} {index : UInt32}
    (h : IsIndex digits index rest) (hrest : c.rest = ['!'] ++ (digits ++ rest)) :
    readType (fuel + 1) c =
      readSuffixes (.typeParam index) rest (c.after (['!'] ++ digits) rest).column := by
  have hblank : c.skipBlanks = c := Cursor.skipBlanks_of_startsName hrest (by decide)
  have hsingle : c.eat? ['!', '!'] = none := by
    -- A digit follows the mark, so it is not doubled.
    obtain ⟨d, ds, rfl⟩ := List.exists_cons_of_ne_nil h.nonempty
    have hd := h.digit d List.mem_cons_self
    have hne : ('!' == d) = false := by
      rw [beq_eq_false_iff_ne]
      rintro rfl
      exact absurd hd (by decide)
    unfold Cursor.eat?
    rw [hrest]
    simp [List.isPrefixOf, hne]
  rw [readType]
  dsimp only
  rw [hblank, hsingle, Cursor.eat?_append hrest]
  dsimp only
  rw [Cursor.digits_of_isIndex h rfl, Cursor.after_after]
  rfl

/-- A name is read as a named type, up to its arguments. -/
theorem readType_name {fuel : Nat} {c : Cursor} {name : String} {rest : List Char}
    (hname : IsName name) (hfirst : name.toList.head? ≠ some '!')
    (hrest : c.rest = name.toList ++ rest)
    (htaken : takeName 0 true (name.toList ++ rest) = some (name.toList, rest)) :
    readType (fuel + 1) c =
      match (c.after name.toList rest).eat? ['<'] with
      | none => readSuffixes (.named name []) rest (c.after name.toList rest).column
      | some c =>
        match c.skipBlanks.eat? ['>'] with
        | some c => readSuffixes (.named name []) c.rest c.column
        | none =>
          readTypes fuel '>' c.skipBlanks >>= fun (args, c) =>
            readSuffixes (.named name args) c.rest c.column := by
  obtain ⟨ch, cs, hcs, hch⟩ := hname.head
  have hbang : c.rest.head? ≠ some '!' := by
    rw [hrest, hcs]
    rw [hcs] at hfirst
    exact hfirst
  have hchars : c.rest = ch :: (cs ++ rest) := by
    rw [hrest, hcs]
    rfl
  have hblank : c.skipBlanks = c := Cursor.skipBlanks_of_startsName hchars hch
  rw [readType]
  dsimp only
  rw [hblank, Cursor.eat?_of_head hbang, Cursor.eat?_of_head hbang,
    Cursor.name_eq hname hrest htaken]
  rfl

/-- What may close a list. -/
def closesList (c : Char) : Bool := c == '>' || c == ')'

/-- What closes a list ends a type. -/
theorem endsType_of_closesList {c : Char} (h : closesList c = true) (rest : List Char) :
    EndsType (c :: rest) := by
  simp only [closesList, Bool.or_eq_true, beq_iff_eq] at h
  rcases h with rfl | rfl <;> exact headNot_cons (by decide)

/-- It is not blank. -/
theorem isBlank_of_closesList {c : Char} (h : closesList c = true) : Text.isBlank c = false := by
  simp only [closesList, Bool.or_eq_true, beq_iff_eq] at h
  rcases h with rfl | rfl <;> decide

/-- One item of a list is read, up to what follows it. -/
theorem readTypes_item {fuel : Nat} {close : Char} {c : Cursor} {t : TypeName}
    {rest : List Char} {column : Nat} (h : readType fuel c = .ok (t, ⟨rest, column⟩))
    (hrest : HeadNot Text.isBlank rest) :
    readTypes (fuel + 1) close c =
      match Cursor.eat? ⟨rest, column⟩ [','] with
      | some c => readTypes fuel close c >>= fun (rest, c) => .ok (t :: rest, c)
      | none =>
        match Cursor.eat? ⟨rest, column⟩ [close] with
        | some c => .ok ([t], c)
        | none =>
          .error (Cursor.fail ⟨rest, column⟩ ("expected ',' or '" ++ close.toString ++ "'")) := by
  rw [readTypes, h]
  dsimp only [bind, Except.bind]
  rw [Cursor.skipBlanks_of_headNot hrest]
  rfl

mutual

/-- **The text of a type name is read as the type name.** What follows it is left to the reader of
suffixes, so that the text of a suffixed type is the case of its element. -/
theorem readType_render : (t : TypeName) → t.WellFormed → {fuel : Nat} → {c : Cursor} →
    {rest : List Char} → 2 * t.render.toList.length ≤ fuel → c.rest = t.render.toList ++ rest →
    EndsName rest → readType fuel c = readSuffixes t rest (c.after t.render.toList rest).column
  | .named name [], hwf, fuel, c, rest, hfuel, hrest, hend => by
    obtain ⟨hname, hfirst, -, -⟩ := hwf
    rw [TypeName.render] at hfuel hrest
    have hpositive : 0 < name.toList.length := List.length_pos_iff.2 hname.nonempty
    obtain ⟨fuel, rfl⟩ : ∃ n, fuel = n + 1 := ⟨fuel - 1, by omega⟩
    have hopen : (c.after name.toList rest).rest.head? ≠ some '<' := by
      intro hhead
      have hstarts : startsName '<' = false := hend '<' hhead
      revert hstarts
      decide
    rw [readType_name hname hfirst hrest (hname.taken rest hend), Cursor.eat?_of_head hopen]
    rfl
  | .named name (t :: ts), hwf, fuel, c, rest, hfuel, hrest, hend => by
    obtain ⟨hname, hfirst, hopens, hargs⟩ := hwf
    have htext : (TypeName.named name (t :: ts)).render.toList =
        name.toList ++ '<' :: ((TypeName.renderList (t :: ts)).toList ++ ['>']) := by
      simp [TypeName.render, TypeName.renderList]
    have hlength := congrArg List.length htext
    simp only [List.length_append, List.length_cons, List.length_nil] at hlength
    obtain ⟨fuel, rfl⟩ : ∃ n, fuel = n + 1 := ⟨fuel - 1, by omega⟩
    have hrest' : c.rest =
        name.toList ++ '<' :: ((TypeName.renderList (t :: ts)).toList ++ '>' :: rest) := by
      rw [hrest, htext]
      simp
    have hlist : (c.after name.toList
        ('<' :: ((TypeName.renderList (t :: ts)).toList ++ '>' :: rest))).eat? ['<'] =
        some ((c.after name.toList _).after ['<']
          ((TypeName.renderList (t :: ts)).toList ++ '>' :: rest)) :=
      Cursor.eat?_append rfl
    obtain ⟨ch, cs, hcs, hch⟩ := TypeName.head_renderList (List.cons_ne_nil t ts) hargs
    have hblank : Cursor.skipBlanks ((c.after name.toList
        ('<' :: ((TypeName.renderList (t :: ts)).toList ++ '>' :: rest))).after ['<']
          ((TypeName.renderList (t :: ts)).toList ++ '>' :: rest)) = _ :=
      Cursor.skipBlanks_of_startsName (by rw [hcs]; rfl) hch
    rw [readType_name hname hfirst hrest' (hopens (List.cons_ne_nil t ts) _), hlist]
    dsimp only
    have hclose : ((TypeName.renderList (t :: ts)).toList ++ '>' :: rest).head? ≠ some '>' := by
      rw [hcs]
      intro hhead
      cases hhead
      revert hch
      decide
    rw [hblank, Cursor.eat?_of_head hclose]
    dsimp only
    rw [readTypes_render (t :: ts) (List.cons_ne_nil t ts) hargs (by omega) rfl rfl]
    show readSuffixes (.named name (t :: ts)) rest _ = _
    rw [Cursor.after_after, Cursor.after_after, htext]
    rfl
  | .typeParam index, hwf, fuel, c, rest, hfuel, hrest, hend => by
    have htext : (TypeName.typeParam index).render.toList =
        ['!'] ++ (Nat.repr index.toNat).toList := by
      simp [TypeName.render]
    have hlength := congrArg List.length htext
    rw [List.length_append, List.length_singleton] at hlength
    obtain ⟨fuel, rfl⟩ : ∃ n, fuel = n + 1 := ⟨fuel - 1, by omega⟩
    rw [htext, List.append_assoc] at hrest
    rw [readType_typeParam (isIndex_repr hend) hrest, ← htext]
  | .methodParam index, hwf, fuel, c, rest, hfuel, hrest, hend => by
    have htext : (TypeName.methodParam index).render.toList =
        ['!', '!'] ++ (Nat.repr index.toNat).toList := by
      simp [TypeName.render]
    have hlength := congrArg List.length htext
    simp only [List.length_append, List.length_cons] at hlength
    obtain ⟨fuel, rfl⟩ : ∃ n, fuel = n + 1 := ⟨fuel - 1, by omega⟩
    rw [htext, List.append_assoc] at hrest
    rw [readType_methodParam (isIndex_repr hend) hrest, ← htext]
  | .suffixed element suffix, hwf, fuel, c, rest, hfuel, hrest, hend => by
    have hlength :
        element.render.toList.length ≤ (element.suffixed suffix).render.toList.length := by
      simp [TypeName.render]
    have hrest' : c.rest = element.render.toList ++ (suffix.text.toList ++ rest) := by
      simpa [TypeName.render] using hrest
    rw [readType_render element hwf (by omega) hrest' (endsName_suffix suffix rest),
      readSuffixes_suffix]
    show readSuffixes _ rest ((c.after _ _).after suffix.text.toList rest).column = _
    rw [Cursor.after_after, TypeName.render, String.toList_append]

/-- The text of a list of type names is read as the list, up to the closing bracket. -/
theorem readTypes_render : (ts : List TypeName) → ts ≠ [] → TypeName.AllWellFormed ts →
    {fuel : Nat} → {close : Char} → {c : Cursor} → {rest : List Char} →
    2 * (TypeName.renderList ts).toList.length < fuel → closesList close = true →
    c.rest = (TypeName.renderList ts).toList ++ close :: rest →
    readTypes fuel close c =
      .ok (ts, c.after ((TypeName.renderList ts).toList ++ [close]) rest)
  | [], hne, _, _, _, _, _, _, _, _ => absurd rfl hne
  | [t], _, hwf, fuel, close, c, rest, hfuel, hclose, hrest => by
    have htext : TypeName.renderList [t] = t.render := by
      simp [TypeName.renderList, TypeName.renderTail]
    rw [htext] at hfuel hrest ⊢
    obtain ⟨fuel, rfl⟩ : ∃ n, fuel = n + 1 := ⟨fuel - 1, by omega⟩
    have hend : EndsType (close :: rest) := endsType_of_closesList hclose rest
    have hitem : readType fuel c = _ := readType_render t hwf.1 (by omega) hrest hend.endsName
    rw [readSuffixes_of_endsType _ hend] at hitem
    have hcomma : (close :: rest).head? ≠ some ',' := by
      intro hhead
      cases hhead
      revert hclose
      decide
    rw [readTypes_item hitem (headNot_cons (isBlank_of_closesList hclose)),
      Cursor.eat?_of_head hcomma, Cursor.eat?_append rfl]
    show Except.ok ([t], (c.after _ _).after [close] rest) = _
    rw [Cursor.after_after]
  | t :: u :: ts, _, hwf, fuel, close, c, rest, hfuel, hclose, hrest => by
    have htext : (TypeName.renderList (t :: u :: ts)).toList =
        t.render.toList ++ ',' :: (TypeName.renderList (u :: ts)).toList := by
      simp [TypeName.renderList, TypeName.renderTail]
    have hlength := congrArg List.length htext
    simp only [List.length_append, List.length_cons] at hlength
    obtain ⟨fuel, rfl⟩ : ∃ n, fuel = n + 1 := ⟨fuel - 1, by omega⟩
    rw [htext, List.append_assoc, List.cons_append] at hrest
    have hend : EndsType (',' :: ((TypeName.renderList (u :: ts)).toList ++ close :: rest)) :=
      headNot_cons (by decide)
    have hitem : readType fuel c = _ := readType_render t hwf.1 (by omega) hrest hend.endsName
    rw [readSuffixes_of_endsType _ hend] at hitem
    rw [readTypes_item hitem (headNot_cons (by decide)), Cursor.eat?_append rfl]
    dsimp only
    rw [readTypes_render (u :: ts) (List.cons_ne_nil u ts) hwf.2 (by omega) hclose rfl]
    show Except.ok (t :: u :: ts, ((c.after _ _).after [','] _).after _ rest) = _
    rw [Cursor.after_after, Cursor.after_after, htext]
    simp

end

/-! ## Whole texts -/

namespace Cursor

/-- **The text of a type is read as the type.** -/
theorem type_render {c : Cursor} {t : TypeName} {rest : List Char} (h : t.WellFormed)
    (hrest : c.rest = t.render.toList ++ rest) (hend : EndsType rest) :
    c.type = .ok (t, c.after t.render.toList rest) := by
  have hfuel : 2 * t.render.toList.length ≤ c.fuel := by
    have hlength := congrArg List.length hrest
    rw [List.length_append] at hlength
    unfold Cursor.fuel
    omega
  unfold Cursor.type
  rw [readType_render t h hfuel hrest hend.endsName, readSuffixes_of_endsType _ hend]
  rfl

/-- So is the text of a list. -/
theorem types_render {c : Cursor} {ts : List TypeName} {close : Char} {rest : List Char}
    (h : TypeName.AllWellFormed ts) (hclose : closesList close = true)
    (hrest : c.rest = (TypeName.renderList ts).toList ++ close :: rest) :
    c.types close = .ok (ts, c.after ((TypeName.renderList ts).toList ++ [close]) rest) := by
  unfold Cursor.types
  by_cases hne : ts = []
  · subst hne
    have hblank : c.skipBlanks = c := by
      refine skipBlanks_of_headNot ?_
      rw [hrest]
      exact headNot_cons (isBlank_of_closesList hclose)
    have hrest' : c.rest = [close] ++ rest := hrest
    rw [hblank, eat?_append hrest']
    rfl
  · obtain ⟨ch, cs, hcs, hch⟩ := TypeName.head_renderList hne h
    have hchars : c.rest = ch :: (cs ++ close :: rest) := by
      rw [hrest, hcs]
      rfl
    have hother : c.rest.head? ≠ some close := by
      rw [hchars]
      intro hhead
      cases hhead
      revert hch
      simp only [closesList, Bool.or_eq_true, beq_iff_eq] at hclose
      rcases hclose with rfl | rfl <;> decide
    have hfuel : 2 * (TypeName.renderList ts).toList.length < c.fuel := by
      have hlength := congrArg List.length hrest
      rw [List.length_append] at hlength
      unfold Cursor.fuel
      omega
    rw [skipBlanks_of_startsName hchars hch, eat?_of_head hother]
    exact readTypes_render ts hne h hfuel hclose hrest

/-- Nothing is left at the end of a text. -/
theorem finish_nil {c : Cursor} (h : c.rest = []) : c.finish = .ok () := by
  have hblank : c.skipBlanks = c := skipBlanks_of_headNot (h ▸ headNot_nil _)
  unfold Cursor.finish
  rw [hblank]
  simp [h]

/-- A type that is read is well formed. -/
theorem wellFormed_of_type {c c' : Cursor} {t : TypeName} (h : c.type = .ok (t, c')) :
    t.WellFormed :=
  (typeRead_of_readType h).wellFormed

/-- So are the types of a list. -/
theorem wellFormed_of_types {c c' : Cursor} {close : Char} {ts : List TypeName}
    (h : c.types close = .ok (ts, c')) : TypeName.AllWellFormed ts :=
  (listRead_of_readItems h).wellFormed

end Cursor

namespace TypeName

/-- So is a type that is parsed. -/
theorem wellFormed_of_parse {text : String} {t : TypeName} (h : TypeName.parse text = .ok t) :
    t.WellFormed := by
  unfold TypeName.parse at h
  split at h
  · rename_i t' hscan
    cases h
    obtain ⟨⟨t'', c⟩, htype, hscan⟩ := bind_eq_ok.1 hscan
    obtain ⟨-, -, hscan⟩ := bind_eq_ok.1 hscan
    cases hscan
    exact Cursor.wellFormed_of_type htype
  · cases h

/-- **The text of a well-formed type name is read as the type name.** -/
theorem parse_render {t : TypeName} (h : t.WellFormed) : TypeName.parse t.render = .ok t := by
  have htype : (Cursor.ofString t.render).type =
      .ok (t, (Cursor.ofString t.render).after t.render.toList []) :=
    Cursor.type_render h (List.append_nil _).symm (headNot_nil _)
  have hscan : TypeName.scan t.render = .ok t := by
    unfold TypeName.scan
    rw [htype]
    dsimp only [bind, Except.bind]
    rw [Cursor.finish_nil rfl]
    rfl
  unfold TypeName.parse
  rw [hscan]

end TypeName

end Hotswap
