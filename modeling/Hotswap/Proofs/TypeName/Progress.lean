import Hotswap.Proofs.Result
import Hotswap.Proofs.TypeName.Grammar
import Mathlib

/-!
# Where the readers leave the cursor

A reader goes forward over the text and counts the bytes it goes over. `Cursor.Reaches` says that a
cursor is where another one is after some characters, with the column as many bytes further, and
`Cursor.Advances` that there is at least one such character.

* `Cursor.advances_of_name`, `Cursor.advances_of_type`, `Cursor.advances_of_types`: a name, a type
  and the rest of a list take at least one character.
* `Cursor.Advances.column_lt`: what this means for columns.
-/

namespace Hotswap

/-- There are no more characters than bytes. -/
theorem length_le_byteCount (cs : List Char) : cs.length ≤ byteCount cs := by
  induction cs with
  | nil => exact Nat.zero_le _
  | cons c cs ih =>
    have hsize := c.utf8Size_pos
    simp only [byteCount, List.foldr_cons, List.length_cons] at ih ⊢
    omega

namespace Cursor

/-- A cursor is where another one is after some characters. -/
def Reaches (c c' : Cursor) : Prop :=
  ∃ taken, c.rest = taken ++ c'.rest ∧ c'.column = c.column + byteCount taken

/-- A cursor is behind another one. -/
def Advances (c c' : Cursor) : Prop := c.Reaches c' ∧ c'.rest.length < c.rest.length

namespace Reaches

variable {c c' c'' : Cursor}

/-- A cursor reaches itself. -/
theorem refl (c : Cursor) : c.Reaches c := ⟨[], rfl, rfl⟩

/-- What is reached from what is reached is reached. -/
theorem trans (h : c.Reaches c') (h' : c'.Reaches c'') : c.Reaches c'' := by
  obtain ⟨taken, hrest, hcolumn⟩ := h
  obtain ⟨taken', hrest', hcolumn'⟩ := h'
  refine ⟨taken ++ taken', by rw [hrest, hrest', List.append_assoc], ?_⟩
  rw [hcolumn', hcolumn, byteCount_append, Nat.add_assoc]

/-- What lies behind a piece of the text is reached. -/
theorem after {taken rest : List Char} (h : c.rest = taken ++ rest) :
    c.Reaches (c.after taken rest) := ⟨taken, h, rfl⟩

/-- No more characters are left behind. -/
theorem length_le (h : c.Reaches c') : c'.rest.length ≤ c.rest.length := by
  obtain ⟨taken, hrest, -⟩ := h
  rw [hrest, List.length_append]
  omega

end Reaches

namespace Advances

variable {c c' c'' : Cursor}

/-- Going on after reaching a place is going forward. -/
theorem of_reaches (h : c.Reaches c') (h' : c'.Advances c'') : c.Advances c'' :=
  ⟨h.trans h'.1, h'.2.trans_le h.length_le⟩

/-- Reaching a place after going forward is going forward. -/
theorem reaches (h : c.Advances c') (h' : c'.Reaches c'') : c.Advances c'' :=
  ⟨h.1.trans h', h'.length_le.trans_lt h.2⟩

/-- Going over a piece that is not empty is going forward. -/
theorem after {taken rest : List Char} (h : c.rest = taken ++ rest) (hne : taken ≠ []) :
    c.Advances (c.after taken rest) := by
  refine ⟨.after h, ?_⟩
  have hpositive := List.length_pos_iff.2 hne
  rw [h, List.length_append]
  exact Nat.lt_add_of_pos_left hpositive

/-- Every character takes a byte, so the column grows. -/
theorem column_lt (h : c.Advances c') : c.column < c'.column := by
  obtain ⟨⟨taken, hrest, hcolumn⟩, hlength⟩ := h
  rw [hrest, List.length_append] at hlength
  have hbytes := length_le_byteCount taken
  omega

end Advances

/-! ## The readers -/

variable {c c' : Cursor}

/-- Skipping blanks reaches what follows them. -/
theorem reaches_skipBlanks (c : Cursor) : c.Reaches c.skipBlanks :=
  .after List.takeWhile_append_dropWhile.symm

/-- A piece that is taken is there. -/
theorem exists_of_eat? {text : List Char} (h : c.eat? text = some c') :
    ∃ rest, c.rest = text ++ rest ∧ c' = c.after text rest := by
  have hrest := rest_of_eat? h
  refine ⟨c'.rest, hrest, ?_⟩
  rw [eat?_append hrest] at h
  exact (Option.some.inj h).symm

/-- A character that is next can be eaten. -/
theorem exists_eat?_of_head {ch : Char} (h : c.rest.head? = some ch) :
    ∃ c', c.eat? [ch] = some c' := by
  obtain ⟨rest, hrest⟩ := List.head?_eq_some_iff.1 h
  exact ⟨c.after [ch] rest, eat?_append hrest⟩

/-- Taking one that is not empty is going forward. -/
theorem advances_of_eat? {text : List Char} (hne : text ≠ []) (h : c.eat? text = some c') :
    c.Advances c' := by
  obtain ⟨rest, hrest, rfl⟩ := exists_of_eat? h
  exact .after hrest hne

/-- Reading an index reaches what follows it. -/
theorem reaches_of_digits {index : UInt32} (h : c.digits = .ok (index, c')) : c.Reaches c' := by
  unfold digits at h
  dsimp only at h
  split at h
  · cases h
  · cases h
    exact .after List.takeWhile_append_dropWhile.symm

/-- A name takes at least one character. -/
theorem advances_of_name {name : String} (h : c.name = .ok (name, c')) : c.Advances c' := by
  unfold Cursor.name at h
  split at h
  · cases h
  · cases h
  · rename_i taken rest hnil htaken
    cases h
    exact .after (takeName_eq htaken) hnil

end Cursor

/-- Reading suffixes reaches what follows them. -/
theorem reaches_of_readSuffixes {t t' : TypeName} {cs : List Char} {column : Nat} {c : Cursor}
    (h : readSuffixes t cs column = .ok (t', c)) : Cursor.Reaches ⟨cs, column⟩ c := by
  fun_induction readSuffixes t cs column with
  | case1 t rest column ih => exact .trans ⟨['[', ']'], rfl, rfl⟩ (ih h)
  | case2 t rest column ih => exact .trans ⟨['&'], rfl, rfl⟩ (ih h)
  | case3 t rest column ih => exact .trans ⟨['*'], rfl, rfl⟩ (ih h)
  | case4 => cases h
  | case5 =>
    cases h
    exact .refl _

/-! ## Types and lists -/

mutual

/-- **A type takes at least one character**, and so does the rest of a list. -/
theorem TypeRead.advances : {c c' : Cursor} → {t : TypeName} → TypeRead c t c' → c.Advances c'
  | c, _, _, .suffixes hbase h =>
    .of_reaches c.reaches_skipBlanks (hbase.advances.reaches (reaches_of_readSuffixes h))

/-- Reading a type without suffixes goes forward. -/
theorem BaseRead.advances : {c c' : Cursor} → {t : TypeName} → BaseRead c t c' → c.Advances c'
  | _, _, _, .methodParam hmarks hdigits =>
    (Cursor.advances_of_eat? (List.cons_ne_nil _ _) hmarks).reaches
      (Cursor.reaches_of_digits hdigits)
  | _, _, _, .typeParam _ hmark hdigits =>
    (Cursor.advances_of_eat? (List.cons_ne_nil _ _) hmark).reaches
      (Cursor.reaches_of_digits hdigits)
  | _, _, _, .name _ hname _ => Cursor.advances_of_name hname
  | _, _, _, .applied _ hname hopen hargs => by
    have hopen := Cursor.advances_of_eat? (List.cons_ne_nil _ _) hopen
    exact (Cursor.advances_of_name hname).reaches (hopen.1.trans hargs.advances.1)

/-- So does reading a list to its bracket. -/
theorem ListRead.advances : {close : Char} → {c c' : Cursor} → {ts : List TypeName} →
    ListRead close c ts c' → c.Advances c'
  | _, c, _, _, .blanks hclose =>
    .of_reaches c.reaches_skipBlanks (Cursor.advances_of_eat? (List.cons_ne_nil _ _) hclose)
  | _, c, _, _, .items _ h => .of_reaches c.reaches_skipBlanks h.advances

/-- So does reading items. -/
theorem ItemsRead.advances : {close : Char} → {c c' : Cursor} → {ts : List TypeName} →
    ItemsRead close c ts c' → c.Advances c'
  | _, _, _, _, @ItemsRead.last _ _ c₁ _ _ h _ hclose => by
    have hclose := Cursor.advances_of_eat? (List.cons_ne_nil _ _) hclose
    exact h.advances.reaches (c₁.reaches_skipBlanks.trans hclose.1)
  | _, _, _, _, @ItemsRead.cons _ _ c₁ _ _ _ _ h hcomma hrest => by
    have hcomma := Cursor.advances_of_eat? (List.cons_ne_nil _ _) hcomma
    exact h.advances.reaches (c₁.reaches_skipBlanks.trans (hcomma.1.trans hrest.advances.1))

end

namespace Cursor

variable {c c' : Cursor}

/-- **Reading a type goes forward.** -/
theorem advances_of_type {t : TypeName} (h : c.type = .ok (t, c')) : c.Advances c' :=
  (typeRead_of_readType h).advances

/-- So does reading a list of types. -/
theorem advances_of_types {close : Char} {ts : List TypeName} (h : c.types close = .ok (ts, c')) :
    c.Advances c' :=
  (listRead_of_readItems h).advances

end Cursor

end Hotswap
