import Hotswap.Table
import Mathlib

/-!
# Entries of a table

`Table.get?` is the view of a table and `Table.entries` its content. Because the keys increase
strictly the two say the same: a table holds a value at a key exactly if it has that entry
(`get?_eq_some_iff`). An entry that is put in stands between the entries with other keys
(`exists_place_eq`), so a key that was not there makes one entry more (`size_insert`). A key that is
larger than all others goes to the end (`entries_insert`), so a table that is filled in the order of
its keys has its entries in the order they were put in.
-/

namespace Hotswap.Table

variable {κ α β : Type} [Ord κ] [Std.LawfulEqOrd κ]

/-- What is found in a list of entries is in it. -/
theorem mem_of_lookup {k : κ} {v : α} {l : List (κ × α)} (h : lookup k l = some v) :
    (k, v) ∈ l := by
  induction l with
  | nil => cases h
  | cons e rest ih =>
    rw [lookup] at h
    split at h
    · rename_i hk
      cases h
      have hk := Std.LawfulEqCmp.eq_of_compare hk
      exact hk ▸ List.mem_cons_self
    · exact List.mem_cons_of_mem _ (ih h)

/-- What is in an increasing list of entries is found there. -/
theorem lookup_of_mem {k : κ} {v : α} {l : List (κ × α)}
    (hl : l.Pairwise fun a b => compare a.1 b.1 = .lt) (h : (k, v) ∈ l) :
    lookup k l = some v := by
  induction l with
  | nil => cases h
  | cons e rest ih =>
    obtain ⟨hfirst, hrest⟩ := List.pairwise_cons.1 hl
    rw [lookup]
    rcases List.mem_cons.1 h with rfl | hmem
    · simp
    · -- An entry behind the first one has a larger key, so the first one is passed over.
      have hlt : compare e.1 k = .lt := hfirst _ hmem
      have hne : compare k e.1 ≠ .eq := by
        intro heq
        have hk := Std.LawfulEqCmp.eq_of_compare heq
        rw [← hk] at hlt
        simp at hlt
      rw [if_neg hne]
      exact ih hrest hmem

/-- A table holds a value at a key exactly if it has that entry. -/
theorem get?_eq_some_iff {t : Table κ α} {k : κ} {v : α} :
    t.get? k = some v ↔ (k, v) ∈ t.entries :=
  ⟨mem_of_lookup, lookup_of_mem t.increasing⟩

/-- A key is in a table exactly if there is an entry with it. -/
theorem contains_eq_true_iff {t : Table κ α} {k : κ} :
    t.contains k = true ↔ ∃ v, (k, v) ∈ t.entries := by
  simp only [contains, Option.isSome_iff_exists, get?_eq_some_iff]

/-- No key is there twice. -/
theorem nodup_keys (t : Table κ α) : (t.entries.map (·.1)).Nodup := by
  rw [List.Nodup, List.pairwise_map]
  refine t.increasing.imp fun {a b} hlt heq => ?_
  rw [heq] at hlt
  simp at hlt

/-- The table with each value replaced by its image. -/
def map (f : α → β) (t : Table κ α) : Table κ β :=
  ⟨t.entries.map fun e => (e.1, f e.2), List.pairwise_map.2 t.increasing⟩

omit [Std.LawfulEqOrd κ] in
/-- The image of a table has the image of a value at its key. -/
theorem get?_map (f : α → β) (t : Table κ α) (k : κ) : (t.map f).get? k = (t.get? k).map f := by
  have hlookup : ∀ l : List (κ × α),
      lookup k (l.map fun e => (e.1, f e.2)) = (lookup k l).map f := by
    intro l
    induction l with
    | nil => rfl
    | cons e rest ih =>
      simp only [List.map_cons, lookup, ih]
      split <;> rfl
  exact hlookup t.entries

/-- A value that is inserted has its image inserted. -/
theorem map_insert [Std.TransOrd κ] (f : α → β) (t : Table κ α) (k : κ) (v : α) :
    (t.insert k v).map f = (t.map f).insert k (f v) := by
  have hplace : ∀ l : List (κ × α), (place k v l).map (fun e => (e.1, f e.2)) =
      place k (f v) (l.map fun e => (e.1, f e.2)) := by
    intro l
    induction l with
    | nil => rfl
    | cons e rest ih =>
      rw [List.map_cons, place, place]
      dsimp only
      split
      · rfl
      · rfl
      · rw [List.map_cons, ih]
  exact ext (hplace t.entries)

omit [Std.LawfulEqOrd κ] in
/-- A key that is larger than all others is placed at the end. -/
theorem place_of_forall_lt [Std.TransOrd κ] {k : κ} (v : α) {l : List (κ × α)}
    (h : ∀ e ∈ l, compare e.1 k = .lt) : place k v l = l ++ [(k, v)] := by
  induction l with
  | nil => rfl
  | cons e rest ih =>
    obtain ⟨hfirst, hrest⟩ := List.forall_mem_cons.1 h
    have hgt : compare k e.1 = .gt := Std.OrientedCmp.gt_of_lt hfirst
    rw [place, hgt]
    show e :: place k v rest = _
    rw [ih hrest]
    rfl

/-- A placed entry stands between the entries with other keys. -/
theorem exists_place_eq [Std.TransOrd κ] [DecidableEq κ] (k : κ) (v : α) {l : List (κ × α)}
    (hl : l.Pairwise fun a b => compare a.1 b.1 = .lt) :
    ∃ before after, place k v l = before ++ (k, v) :: after ∧
      l.filter (·.1 ≠ k) = before ++ after := by
  induction l with
  | nil => exact ⟨[], [], rfl, rfl⟩
  | cons e rest ih =>
    obtain ⟨hfirst, hrest⟩ := List.pairwise_cons.1 hl
    -- A key that is not larger than the first one does not come again.
    have hlater : compare k e.1 ≠ .gt → ∀ a ∈ rest, a.1 ≠ k := by
      rintro hle a ha rfl
      exact hle (Std.OrientedCmp.gt_of_lt (hfirst a ha))
    rw [place]
    split
    · rename_i hlt
      refine ⟨[], e :: rest, rfl, List.filter_eq_self.2 fun a ha => ?_⟩
      rcases List.mem_cons.1 ha with rfl | ha
      · have hne : a.1 ≠ k := by
          rintro rfl
          simp at hlt
        simpa using hne
      · simpa using hlater (by simp [hlt]) a ha
    · rename_i heq
      have hk : e.1 = k := (Std.LawfulEqCmp.eq_of_compare heq).symm
      refine ⟨[], rest, rfl, ?_⟩
      rw [List.filter_cons_of_neg (by simp [hk]), List.nil_append]
      exact List.filter_eq_self.2 fun a ha => by simpa using hlater (by simp [heq]) a ha
    · rename_i hgt
      obtain ⟨before, after, hplace, hfilter⟩ := ih hrest
      have hne : e.1 ≠ k := by
        rintro rfl
        simp at hgt
      refine ⟨e :: before, after, by rw [hplace]; rfl, ?_⟩
      rw [List.filter_cons_of_pos (by simpa using hne), hfilter]
      rfl

/-- A key that is not there makes the table larger by one. -/
theorem size_insert [Std.TransOrd κ] [DecidableEq κ] {t : Table κ α} {k : κ} (v : α)
    (h : t.get? k = none) : (t.insert k v).size = t.size + 1 := by
  obtain ⟨before, after, hplace, hfilter⟩ := exists_place_eq k v t.increasing
  have hothers : t.entries.filter (·.1 ≠ k) = t.entries := by
    refine List.filter_eq_self.2 fun e he => ?_
    have hne : e.1 ≠ k := by
      rintro rfl
      have hheld := get?_eq_some_iff.2 he
      rw [h] at hheld
      cases hheld
    simpa using hne
  have hlength := congrArg List.length (hothers.symm.trans hfilter)
  show (place k v t.entries).length = t.entries.length + 1
  rw [hplace, hlength]
  simp only [List.length_append, List.length_cons]
  omega

/-- A key that is larger than all others is inserted at the end. -/
theorem entries_insert [Std.TransOrd κ] {t : Table κ α} {k : κ} (v : α)
    (h : ∀ e ∈ t.entries, compare e.1 k = .lt) :
    (t.insert k v).entries = t.entries ++ [(k, v)] :=
  place_of_forall_lt v h

end Hotswap.Table
