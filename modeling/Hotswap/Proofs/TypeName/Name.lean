import Hotswap.Proofs.TypeName.Scanner
import Mathlib

/-!
# The language of names

What a name is can be said without a scanner. A name is made of name characters and generated
segments, and a segment is balanced and opens at the start of the name or right after a `.` or a `/`
(`NameText`). Nothing is said about where a name stops in a longer text. That is the longest match:
a name stops where no longer one goes on.

* `takeName_append_of_nameText`: the scanner goes through a name and is then where the name ends.
* `takeName_eq_some_iff`: the scanner splits off exactly the names that cannot go on.
* `longest_of_takeName` and `takeName_of_isLongest`: what it splits off is the longest name, and the
  longest name is split off if what follows is not a segment that never closes.
-/

namespace Hotswap

/-! ## Names -/

/-- Characters in which every `<` has a `>` of its own, and every `>` a `<`. -/
inductive Balanced : List Char → Prop
  /-- Nothing is open. -/
  | nil : Balanced []
  /-- Any other character. -/
  | char {c : Char} {cs : List Char} (hopen : c ≠ '<') (hclose : c ≠ '>') (h : Balanced cs) :
      Balanced (c :: cs)
  /-- A pair of brackets. -/
  | pair {inner cs : List Char} (hinner : Balanced inner) (h : Balanced cs) :
      Balanced ('<' :: (inner ++ '>' :: cs))

/-- Whether a segment may open after these characters of a name: at the start, or right after a `.`
or a `/`. -/
def mayOpen (name : List Char) : Bool :=
  match name.getLast? with
  | none => true
  | some c => c == '.' || c == '/'

/-- Name characters and balanced segments. -/
inductive NameText : List Char → Prop
  /-- Nothing yet. -/
  | nil : NameText []
  /-- A name character. -/
  | char {name : List Char} {c : Char} (h : NameText name) (hc : isNameChar c = true) :
      NameText (name ++ [c])
  /-- A segment, where one may open. -/
  | segment {name inner : List Char} (h : NameText name) (hopen : mayOpen name = true)
      (hinner : Balanced inner) : NameText (name ++ '<' :: (inner ++ ['>']))

/-- Balanced characters one after another are balanced. -/
theorem Balanced.append {as bs : List Char} (ha : Balanced as) (hb : Balanced bs) :
    Balanced (as ++ bs) := by
  induction ha with
  | nil => exact hb
  | char hopen hclose _ ih => exact .char hopen hclose ih
  | pair hinner _ _ ih => simpa using Balanced.pair hinner ih

/-- A name may open with a segment in brackets. -/
theorem mayOpen_nil : mayOpen [] = true := rfl

/-- After a character a segment may open if it is one of the two separators. -/
@[simp]
theorem mayOpen_append_singleton (name : List Char) (c : Char) :
    mayOpen (name ++ [c]) = (c == '.' || c == '/') := by
  simp [mayOpen]

/-- After a segment none may open. -/
@[simp]
theorem mayOpen_append_segment (name inner : List Char) :
    mayOpen (name ++ '<' :: (inner ++ ['>'])) = false := by
  simp [mayOpen, List.getLast?_cons]

/-- A bracket is no character of a name. -/
theorem isNameChar_open : isNameChar '<' = false := by decide

/-- A character of a name is no bracket. -/
theorem ne_bracket_of_isNameChar {c : Char} (h : isNameChar c = true) : c ≠ '<' ∧ c ≠ '>' := by
  constructor
  · rintro rfl
    simp [isNameChar_open] at h
  · rintro rfl
    exact absurd h (by decide)

/-- The brackets of a name are those of its segments. -/
theorem NameText.balanced {name : List Char} (h : NameText name) : Balanced name := by
  induction h with
  | nil => exact .nil
  | char _ hc ih =>
    obtain ⟨hopen, hclose⟩ := ne_bracket_of_isNameChar hc
    exact ih.append (.char hopen hclose .nil)
  | segment _ _ hinner ih => exact ih.append (.pair hinner .nil)

/-! ## The scanner goes through a name -/

/-- Inside a segment the scanner goes through balanced characters. -/
theorem takeName_append_of_balanced {inner : List Char} (h : Balanced inner) (depth : Nat)
    (rest : List Char) :
    takeName (depth + 1) false (inner ++ rest) =
      (takeName (depth + 1) false rest).map fun split => (inner ++ split.1, split.2) := by
  induction h generalizing depth rest with
  | nil => simp
  | char hopen hclose _ ih =>
    simp [takeName, hopen, hclose, ih, Function.comp_def]
  | @pair inner cs _ _ ihinner ih =>
    -- The bracket opens one level more, which the closing one takes back.
    have hclosed : takeName (depth + 2) false ('>' :: (cs ++ rest)) =
        (takeName (depth + 1) false (cs ++ rest)).map fun split => ('>' :: split.1, split.2) := by
      simp [takeName]
    have hopened : takeName (depth + 1) false ('<' :: (inner ++ '>' :: (cs ++ rest))) =
        (takeName (depth + 2) false (inner ++ '>' :: (cs ++ rest))).map
          fun split => ('<' :: split.1, split.2) := by
      simp [takeName]
    rw [List.cons_append, List.append_assoc, List.cons_append, hopened, ihinner, hclosed, ih]
    simp [Function.comp_def]

/-- **The scanner goes through a name**, and what follows decides whether it goes on. -/
theorem takeName_append_of_nameText {name : List Char} (h : NameText name) (rest : List Char) :
    takeName 0 true (name ++ rest) =
      (takeName 0 (mayOpen name) rest).map fun split => (name ++ split.1, split.2) := by
  induction h generalizing rest with
  | nil => simp [mayOpen_nil]
  | @char name c _ hc ih =>
    rw [List.append_assoc, ih, mayOpen_append_singleton]
    simp [takeName, hc, (ne_bracket_of_isNameChar hc).1, Function.comp_def]
  | @segment name inner _ hopen hinner ih =>
    have hsegment : takeName 0 true ('<' :: (inner ++ '>' :: rest)) =
        (takeName 0 false rest).map
          fun split => ('<' :: (inner ++ '>' :: split.1), split.2) := by
      simp [takeName, takeName_append_of_balanced hinner, Function.comp_def]
    rw [List.append_assoc, ih, hopen, mayOpen_append_segment]
    simp [hsegment, Function.comp_def]

/-! ## What the scanner splits off is a name -/

/-- Inside a segment the scanner goes on behind the bracket that closes it. -/
theorem exists_balanced_of_takeName {depth : Nat} {cs name rest : List Char}
    (h : takeName (depth + 1) false cs = some (name, rest)) :
    ∃ inner name' cs', Balanced inner ∧ cs = inner ++ '>' :: cs' ∧ name = inner ++ '>' :: name' ∧
      takeName depth false cs' = some (name', rest) := by
  induction hlength : cs.length using Nat.strong_induction_on generalizing depth cs name with
  | _ n ih =>
    cases cs with
    | nil => simp [takeName] at h
    | cons c cs =>
      simp only [List.length_cons] at hlength
      rw [takeName] at h
      obtain ⟨⟨name₁, rest₁⟩, htaken, heq⟩ := Option.map_eq_some_iff.1 h
      obtain ⟨rfl, rfl⟩ := Prod.mk.inj heq
      by_cases hopen : c = '<'
      · -- The segment inside closes first, then the one around it.
        subst hopen
        obtain ⟨inner₁, name₂, cs₁, hinner₁, rfl, rfl, hafter⟩ :=
          ih cs.length (by omega) (by simpa using htaken) rfl
        simp only [List.length_append, List.length_cons] at hlength
        obtain ⟨inner₂, name₃, cs₂, hinner₂, rfl, rfl, hbehind⟩ :=
          ih cs₁.length (by omega) hafter rfl
        exact ⟨'<' :: (inner₁ ++ '>' :: inner₂), name₃, cs₂, .pair hinner₁ hinner₂, by simp,
          by simp, hbehind⟩
      · by_cases hclose : c = '>'
        · subst hclose
          exact ⟨[], name₁, cs, .nil, rfl, rfl, by simpa using htaken⟩
        · obtain ⟨inner, name₂, cs₁, hinner, rfl, rfl, hafter⟩ :=
            ih cs.length (by omega) (by simpa [hopen, hclose] using htaken) rfl
          exact ⟨c :: inner, name₂, cs₁, .char hopen hclose hinner, rfl, rfl, hafter⟩

/-- **What the scanner adds to a name** makes a name, at which it stops. -/
theorem nameText_of_takeName {before cs name rest : List Char} (hbefore : NameText before)
    (h : takeName 0 (mayOpen before) cs = some (name, rest)) :
    NameText (before ++ name) ∧ takeName 0 (mayOpen (before ++ name)) rest = some ([], rest) := by
  induction hlength : cs.length using Nat.strong_induction_on generalizing before cs name with
  | _ n ih =>
    cases cs with
    | nil =>
      simp only [takeName, Option.some.injEq, Prod.mk.injEq] at h
      obtain ⟨rfl, rfl⟩ := h
      simpa [takeName] using hbefore
    | cons c cs =>
      simp only [List.length_cons] at hlength
      rw [takeName] at h
      by_cases hopen : c = '<' ∧ mayOpen before = true
      · rw [if_pos hopen] at h
        obtain ⟨⟨name₁, rest₁⟩, htaken, heq⟩ := Option.map_eq_some_iff.1 h
        obtain ⟨rfl, rfl⟩ := Prod.mk.inj heq
        obtain ⟨inner, name₂, cs₁, hinner, rfl, rfl, hafter⟩ := exists_balanced_of_takeName htaken
        simp only [List.length_append, List.length_cons] at hlength
        have hsegment : NameText (before ++ '<' :: (inner ++ ['>'])) :=
          .segment hbefore hopen.2 hinner
        rw [← mayOpen_append_segment before inner] at hafter
        simpa [hopen.1] using ih cs₁.length (by omega) hsegment hafter rfl
      · rw [if_neg hopen] at h
        by_cases hchar : isNameChar c = true
        · rw [if_pos hchar] at h
          obtain ⟨⟨name₁, rest₁⟩, htaken, heq⟩ := Option.map_eq_some_iff.1 h
          obtain ⟨rfl, rfl⟩ := Prod.mk.inj heq
          rw [← mayOpen_append_singleton before c] at htaken
          simpa using ih cs.length (by omega) (.char hbefore hchar) htaken rfl
        · rw [if_neg hchar] at h
          simp only [Option.some.injEq, Prod.mk.injEq] at h
          obtain ⟨rfl, rfl⟩ := h
          refine ⟨by simpa using hbefore, ?_⟩
          simp [takeName, hopen, hchar]

/-- **The scanner splits off exactly the names that cannot go on.** -/
theorem takeName_eq_some_iff {cs name rest : List Char} :
    takeName 0 true cs = some (name, rest) ↔
      NameText name ∧ cs = name ++ rest ∧ takeName 0 (mayOpen name) rest = some ([], rest) := by
  constructor
  · intro h
    obtain ⟨hname, hstop⟩ := nameText_of_takeName .nil h
    exact ⟨hname, takeName_eq h, hstop⟩
  · rintro ⟨hname, rfl, hstop⟩
    rw [takeName_append_of_nameText hname, hstop]
    simp

/-! ## The longest name -/

/-- No longer name goes on behind a name. -/
def IsLongest (name rest : List Char) : Prop :=
  ∀ more, more <+: rest → NameText (name ++ more) → more = []

/-- What the scanner splits off is the longest name. -/
theorem longest_of_takeName {cs name rest : List Char}
    (h : takeName 0 true cs = some (name, rest)) : IsLongest name rest := by
  rintro more ⟨rest', rfl⟩ hmore
  rw [takeName_eq h, ← List.append_assoc, takeName_append_of_nameText hmore] at h
  obtain ⟨⟨name', rest''⟩, -, heq⟩ := Option.map_eq_some_iff.1 h
  have hname : name ++ more ++ name' = name := congrArg Prod.fst heq
  have hlength := congrArg List.length hname
  simp only [List.length_append] at hlength
  exact List.eq_nil_of_length_eq_zero (by omega)

/-- A segment that may open goes on with the name, so none may open where the longest name ends and
balanced brackets follow. -/
theorem mayOpen_of_isLongest {name inner rest : List Char} (hname : NameText name)
    (hinner : Balanced inner) (h : IsLongest name ('<' :: (inner ++ '>' :: rest))) :
    mayOpen name = false := by
  by_contra hopen
  have hmore : NameText (name ++ '<' :: (inner ++ ['>'])) :=
    .segment hname (by simpa using hopen) hinner
  have hnil := h ('<' :: (inner ++ ['>'])) ⟨rest, by simp⟩ hmore
  simp at hnil

/-- The longest name is split off, if what follows is neither a name character nor a bracket that
opens, or is balanced brackets. -/
theorem takeName_of_isLongest {name rest : List Char} (hname : NameText name)
    (hlongest : IsLongest name rest)
    (hrest : EndsName rest ∨
      ∃ inner rest', Balanced inner ∧ rest = '<' :: (inner ++ '>' :: rest')) :
    takeName 0 true (name ++ rest) = some (name, rest) := by
  refine takeName_eq_some_iff.2 ⟨hname, rfl, ?_⟩
  rcases hrest with hends | ⟨inner, rest', hinner, rfl⟩
  · exact takeName_of_endsName _ hends
  · simp [takeName, mayOpen_of_isLongest hname hinner hlongest, isNameChar_open]

/-! ## Names that can be read -/

/-- A text is read as a name exactly if it is one. -/
theorem isName_iff {name : String} : IsName name ↔ name ≠ "" ∧ NameText name.toList := by
  constructor
  · rintro ⟨hnonempty, htaken⟩
    have hwhole := htaken [] (headNot_nil _)
    refine ⟨?_, (takeName_eq_some_iff.1 hwhole).1⟩
    rintro rfl
    exact hnonempty rfl
  · rintro ⟨hnonempty, hname⟩
    refine ⟨by simpa using hnonempty, fun rest hrest => ?_⟩
    exact takeName_eq_some_iff.2 ⟨hname, rfl, takeName_of_endsName _ hrest⟩

/-- An argument list can open after a name exactly if no segment may. -/
theorem opensArgs_iff {name : String} (h : NameText name.toList) :
    OpensArgs name ↔ mayOpen name.toList = false := by
  constructor
  · intro hopens
    by_contra hopen
    have htaken := hopens []
    rw [takeName_append_of_nameText h, Bool.of_not_eq_false hopen] at htaken
    simp [takeName] at htaken
  · intro hopen rest
    refine takeName_eq_some_iff.2 ⟨h, rfl, ?_⟩
    simp [takeName, hopen, isNameChar_open]

end Hotswap
