import Hotswap.Proofs.Result
import Hotswap.TypeName.Scanner

/-!
# How a type is read

The readers of types and of lists call each other and run on fuel. What they did when they succeeded
is said here without the fuel, as a derivation: `TypeRead c t c'` says that the type `t` is read
from the cursor `c` up to `c'`, and `BaseRead`, `ListRead` and `ItemsRead` say so of a type without
its suffixes, of the types between brackets, and of one type or more with commas between them. The
derivations have a case for each way in which the readers go on.

`typeRead_of_readType`, `listRead_of_readItems` and `itemsRead_of_readTypes` give a derivation for
every reading. So what holds of all readings is shown by recursion on derivations, and only this
module looks into the readers for it.
-/

namespace Hotswap

/-! ## The readers in parts -/

/-- Reads what is between the brackets of a list, and the closing one. -/
def readItems (fuel : Nat) (close : Char) (c : Cursor) :
    Except ScanError (List TypeName × Cursor) :=
  match c.skipBlanks.eat? [close] with
  | some c => .ok ([], c)
  | none => readTypes fuel close c.skipBlanks

/-- Reads a type without blanks in front and without suffixes. -/
def readBase (fuel : Nat) (c : Cursor) : Except ScanError (TypeName × Cursor) :=
  match c.eat? ['!', '!'] with
  | some c => do
    let (index, c) ← c.digits
    return (.methodParam index, c)
  | none =>
    match c.eat? ['!'] with
    | some c => do
      let (index, c) ← c.digits
      return (.typeParam index, c)
    | none => do
      let (name, c) ← c.name
      match c.eat? ['<'] with
      | none => return (.named name [], c)
      | some c =>
        let (args, c) ← readItems fuel '>' c
        return (.named name args, c)

/-- A type is read without its suffixes first. -/
theorem readType_succ (fuel : Nat) (c : Cursor) :
    readType (fuel + 1) c =
      readBase fuel c.skipBlanks >>= fun (t, c) => readSuffixes t c.rest c.column := by
  rw [readType, readBase]
  dsimp only
  cases c.skipBlanks.eat? ['!', '!'] with
  | some c₁ =>
    dsimp only
    cases c₁.digits <;> rfl
  | none =>
    cases c.skipBlanks.eat? ['!'] with
    | some c₁ =>
      dsimp only
      cases c₁.digits <;> rfl
    | none =>
      cases c.skipBlanks.name with
      | error e => rfl
      | ok r =>
        obtain ⟨name, c₁⟩ := r
        simp only [ok_bind]
        cases c₁.eat? ['<'] with
        | none => rfl
        | some c₂ =>
          dsimp only [readItems]
          cases c₂.skipBlanks.eat? ['>'] with
          | some c₃ => rfl
          | none =>
            dsimp only
            cases readTypes fuel '>' c₂.skipBlanks <;> rfl

/-! ## Derivations -/

mutual

/-- A type is read up to a cursor. -/
inductive TypeRead : Cursor → TypeName → Cursor → Prop
  /-- Blanks are skipped, and the suffixes follow. -/
  | suffixes {c c₁ c' : Cursor} {base t : TypeName} (hbase : BaseRead c.skipBlanks base c₁)
      (h : readSuffixes base c₁.rest c₁.column = .ok (t, c')) : TypeRead c t c'

/-- A type without blanks in front and without suffixes is read up to a cursor. -/
inductive BaseRead : Cursor → TypeName → Cursor → Prop
  /-- A parameter of the method. -/
  | methodParam {c c₁ c' : Cursor} {index : UInt32} (hmarks : c.eat? ['!', '!'] = some c₁)
      (hdigits : c₁.digits = .ok (index, c')) : BaseRead c (.methodParam index) c'
  /-- A parameter of the declaring type. -/
  | typeParam {c c₁ c' : Cursor} {index : UInt32} (hmarks : c.eat? ['!', '!'] = none)
      (hmark : c.eat? ['!'] = some c₁) (hdigits : c₁.digits = .ok (index, c')) :
      BaseRead c (.typeParam index) c'
  /-- A name. -/
  | name {c c' : Cursor} {name : String} (hmark : c.eat? ['!'] = none)
      (hname : c.name = .ok (name, c')) (hopen : c'.eat? ['<'] = none) :
      BaseRead c (.named name []) c'
  /-- A name with a list right behind it. -/
  | applied {c c₁ c₂ c' : Cursor} {name : String} {args : List TypeName}
      (hmark : c.eat? ['!'] = none) (hname : c.name = .ok (name, c₁))
      (hopen : c₁.eat? ['<'] = some c₂) (hargs : ListRead '>' c₂ args c') :
      BaseRead c (.named name args) c'

/-- The types between brackets are read up to the cursor behind the closing one. -/
inductive ListRead : Char → Cursor → List TypeName → Cursor → Prop
  /-- No types. -/
  | blanks {close : Char} {c c' : Cursor} (hclose : c.skipBlanks.eat? [close] = some c') :
      ListRead close c [] c'
  /-- Some types. -/
  | items {close : Char} {c c' : Cursor} {ts : List TypeName}
      (hclose : c.skipBlanks.eat? [close] = none) (h : ItemsRead close c.skipBlanks ts c') :
      ListRead close c ts c'

/-- One type or more are read up to the cursor behind the closing bracket. -/
inductive ItemsRead : Char → Cursor → List TypeName → Cursor → Prop
  /-- The last type. -/
  | last {close : Char} {c c₁ c' : Cursor} {t : TypeName} (h : TypeRead c t c₁)
      (hcomma : c₁.skipBlanks.eat? [','] = none)
      (hclose : c₁.skipBlanks.eat? [close] = some c') : ItemsRead close c [t] c'
  /-- A type and those behind the comma. -/
  | cons {close : Char} {c c₁ c₂ c' : Cursor} {t : TypeName} {ts : List TypeName}
      (h : TypeRead c t c₁) (hcomma : c₁.skipBlanks.eat? [','] = some c₂)
      (hrest : ItemsRead close c₂ ts c') : ItemsRead close c (t :: ts) c'

end

/-! ## Every reading has a derivation -/

/-- The readings of one type or more with some fuel have derivations. -/
def DerivesItems (fuel : Nat) : Prop :=
  ∀ {close : Char} {c c' : Cursor} {ts : List TypeName},
    readTypes fuel close c = .ok (ts, c') → ItemsRead close c ts c'

/-- A list that is read is derived, if its items are. -/
theorem DerivesItems.list {fuel : Nat} (ih : DerivesItems fuel) {close : Char} {c c' : Cursor}
    {ts : List TypeName} (h : readItems fuel close c = .ok (ts, c')) : ListRead close c ts c' := by
  unfold readItems at h
  split at h
  · rename_i hclose
    cases h
    exact .blanks hclose
  · rename_i hclose
    exact .items hclose (ih h)

/-- So is a type without suffixes. -/
theorem DerivesItems.base {fuel : Nat} (ih : DerivesItems fuel) {c c' : Cursor} {t : TypeName}
    (h : readBase fuel c = .ok (t, c')) : BaseRead c t c' := by
  unfold readBase at h
  split at h
  · rename_i hmarks
    obtain ⟨⟨index, c₁⟩, hdigits, h⟩ := bind_eq_ok.1 h
    cases h
    exact .methodParam hmarks hdigits
  · rename_i hmarks
    split at h
    · rename_i hmark
      obtain ⟨⟨index, c₁⟩, hdigits, h⟩ := bind_eq_ok.1 h
      cases h
      exact .typeParam hmarks hmark hdigits
    · rename_i hmark
      obtain ⟨⟨name, c₁⟩, hname, h⟩ := bind_eq_ok.1 h
      dsimp only at h
      split at h
      · rename_i hopen
        cases h
        exact .name hmark hname hopen
      · rename_i hopen
        obtain ⟨⟨args, c₂⟩, hargs, h⟩ := bind_eq_ok.1 h
        cases h
        exact .applied hmark hname hopen (ih.list hargs)

/-- **Whatever is read is derived**, for types and for items with any fuel. -/
theorem exists_derivation (fuel : Nat) :
    (∀ {c c' : Cursor} {t : TypeName}, readType fuel c = .ok (t, c') → TypeRead c t c') ∧
      DerivesItems fuel := by
  induction fuel with
  | zero =>
    refine ⟨fun h => ?_, fun h => ?_⟩
    · rw [readType] at h
      cases h
    · rw [readTypes] at h
      cases h
  | succ fuel ih =>
    obtain ⟨ihType, ihItems⟩ := ih
    refine ⟨fun h => ?_, fun h => ?_⟩
    · rw [readType_succ] at h
      obtain ⟨⟨base, c₁⟩, hbase, h⟩ := bind_eq_ok.1 h
      exact .suffixes (ihItems.base hbase) h
    · rw [readTypes] at h
      obtain ⟨⟨t, c₁⟩, ht, h⟩ := bind_eq_ok.1 h
      dsimp only at h
      split at h
      · rename_i hcomma
        obtain ⟨⟨ts, c₂⟩, hrest, h⟩ := bind_eq_ok.1 h
        cases h
        exact .cons (ihType ht) hcomma (ihItems hrest)
      · rename_i hcomma
        split at h
        · rename_i hclose
          cases h
          exact .last (ihType ht) hcomma hclose
        · cases h

section

variable {fuel : Nat} {close : Char} {c c' : Cursor} {t : TypeName} {ts : List TypeName}

/-- **Every type that is read has a derivation.** -/
theorem typeRead_of_readType (h : readType fuel c = .ok (t, c')) : TypeRead c t c' :=
  (exists_derivation fuel).1 h

/-- Items that are read are derived. -/
theorem itemsRead_of_readTypes (h : readTypes fuel close c = .ok (ts, c')) :
    ItemsRead close c ts c' :=
  (exists_derivation fuel).2 h

/-- So is a list. -/
theorem listRead_of_readItems (h : readItems fuel close c = .ok (ts, c')) :
    ListRead close c ts c' :=
  DerivesItems.list (exists_derivation fuel).2 h

end

end Hotswap
