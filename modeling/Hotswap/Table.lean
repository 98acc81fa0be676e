/-!
# Tables

A `Table` is a finite map kept as its list of entries in strictly increasing order of the keys. The
order is part of the type, so two tables with the same entries are equal, and whatever is written
from a table (a listing, a manifest, a method body) comes out in the order of the keys.

The view of a table is `Table.get?`. The three facts at the end say what each operation does to it:
the empty table holds nothing, and inserting a key changes what is held at that key and nowhere
else.
-/

namespace Hotswap

/-- A finite map, as its entries in strictly increasing order of the keys. -/
structure Table (κ α : Type) [Ord κ] where
  /-- The entries. -/
  entries : List (κ × α)
  /-- The keys increase strictly. -/
  increasing : entries.Pairwise fun a b => compare a.1 b.1 = .lt

namespace Table

variable {κ α : Type} [Ord κ]

/-- Two tables with the same entries are equal. -/
@[ext]
theorem ext {s t : Table κ α} (h : s.entries = t.entries) : s = t := by
  cases s; cases t; cases h; rfl

instance [DecidableEq κ] [DecidableEq α] : DecidableEq (Table κ α) := fun s t =>
  if h : s.entries = t.entries then .isTrue (ext h) else .isFalse fun e => h (e ▸ rfl)

/-- The table without entries. -/
def empty : Table κ α := ⟨[], .nil⟩

instance : EmptyCollection (Table κ α) := ⟨empty⟩

instance : Inhabited (Table κ α) := ⟨empty⟩

/-- The keys, in increasing order. -/
def keys (t : Table κ α) : List κ := t.entries.map (·.1)

/-- The number of entries. -/
def size (t : Table κ α) : Nat := t.entries.length

/-- Whether the table has no entries. -/
def isEmpty (t : Table κ α) : Bool := t.entries.isEmpty

/-- Looks a key up in a list of entries. -/
def lookup (k : κ) : List (κ × α) → Option α
  | [] => none
  | e :: rest => if compare k e.1 = .eq then some e.2 else lookup k rest

/-- What the table holds at a key. -/
def get? (t : Table κ α) (k : κ) : Option α := lookup k t.entries

/-- Whether the table holds something at a key. -/
def contains (t : Table κ α) (k : κ) : Bool := (t.get? k).isSome

/-- Puts a value at a key in an increasing list of entries, in place of the one that was there. -/
def place (k : κ) (v : α) : List (κ × α) → List (κ × α)
  | [] => [(k, v)]
  | e :: rest =>
    match compare k e.1 with
    | .lt => (k, v) :: e :: rest
    | .eq => (k, v) :: rest
    | .gt => e :: place k v rest

/-- Every key after placing is the new key or an old one. -/
theorem mem_place {k : κ} {v : α} {l : List (κ × α)} {e : κ × α} (h : e ∈ place k v l) :
    e = (k, v) ∨ e ∈ l := by
  induction l with
  | nil => simpa [place] using h
  | cons a rest ih =>
    rw [place] at h
    split at h
    · simpa using h
    · rcases List.mem_cons.1 h with h | h
      · exact .inl h
      · exact .inr (List.mem_cons_of_mem _ h)
    · rcases List.mem_cons.1 h with h | h
      · exact .inr (h ▸ List.mem_cons_self)
      · exact (ih h).imp id (List.mem_cons_of_mem _)

/-- The empty table holds nothing. -/
@[simp]
theorem get?_empty (k : κ) : (empty : Table κ α).get? k = none := rfl

variable [Std.LawfulEqOrd κ]

/-- A value is found where it was placed. -/
theorem lookup_place_self (k : κ) (v : α) (l : List (κ × α)) : lookup k (place k v l) = some v := by
  induction l with
  | nil => simp [place, lookup, Std.ReflCmp.compare_self]
  | cons a rest ih =>
    rw [place]
    split <;> rename_i hk
    · simp [lookup, Std.ReflCmp.compare_self]
    · simp [lookup, Std.ReflCmp.compare_self]
    · simp [lookup, hk, ih]

/-- Placing a key leaves the other keys alone. -/
theorem lookup_place_of_ne {k j : κ} (v : α) (h : j ≠ k) (l : List (κ × α)) :
    lookup j (place k v l) = lookup j l := by
  have hne : compare j k ≠ .eq := fun e => h (Std.LawfulEqCmp.eq_of_compare e)
  induction l with
  | nil => simp [place, lookup, hne]
  | cons a rest ih =>
    rw [place]
    split <;> rename_i hk
    · simp [lookup, hne]
    · have hk := Std.LawfulEqCmp.eq_of_compare hk
      simp [lookup, ← hk, hne]
    · simp [lookup, ih]

variable [Std.TransOrd κ]

/-- Placing a key keeps the order. -/
theorem pairwise_place (k : κ) (v : α) {l : List (κ × α)}
    (h : l.Pairwise fun a b => compare a.1 b.1 = .lt) :
    (place k v l).Pairwise fun a b => compare a.1 b.1 = .lt := by
  induction l with
  | nil => simp [place]
  | cons a rest ih =>
    have ha : ∀ b ∈ rest, compare a.1 b.1 = .lt := (List.pairwise_cons.1 h).1
    rw [place]
    split
    · rename_i hk
      refine List.pairwise_cons.2 ⟨fun b hb => ?_, h⟩
      rcases List.mem_cons.1 hb with hb | hb
      · exact hb ▸ hk
      · exact Std.TransCmp.lt_trans hk (ha b hb)
    · rename_i hk
      have hk := Std.LawfulEqCmp.eq_of_compare hk
      exact List.pairwise_cons.2 ⟨fun b hb => hk ▸ ha b hb, h.of_cons⟩
    · rename_i hk
      refine List.pairwise_cons.2 ⟨fun b hb => ?_, ih h.of_cons⟩
      rcases mem_place hb with hb | hb
      · subst hb
        rw [Std.OrientedOrd.eq_swap, hk]
        rfl
      · exact ha b hb

/-- Puts a value at a key, in place of the one that was there. -/
def insert (t : Table κ α) (k : κ) (v : α) : Table κ α :=
  ⟨place k v t.entries, pairwise_place k v t.increasing⟩

/-- The table of a list of entries; of two entries with one key the later one counts. -/
def ofList (entries : List (κ × α)) : Table κ α :=
  entries.foldl (fun t e => t.insert e.1 e.2) empty

/-- A table holds what was inserted last at a key. -/
@[simp]
theorem get?_insert_self (t : Table κ α) (k : κ) (v : α) : (t.insert k v).get? k = some v :=
  lookup_place_self k v t.entries

/-- Inserting a key leaves the other keys alone. -/
theorem get?_insert_of_ne (t : Table κ α) {k j : κ} (v : α) (h : j ≠ k) :
    (t.insert k v).get? j = t.get? j :=
  lookup_place_of_ne v h t.entries

end Table

end Hotswap
