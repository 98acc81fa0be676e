import Hotswap.Proofs.TypeName.Bytewise
import Hotswap.Proofs.TypeName.Progress
import Mathlib

/-!
# Where a scan by byte positions stands

A cursor keeps the unread characters and counts the bytes before them. That count is a boundary of
the text, and the slice from there on is the unread characters (`Cursor.Within`). So a scan that is
at the column of a cursor sees what a reader sees there (`StandsAt`), and its steps are those of the
cursor: `outcome_peek`, `exists_outcome_move`, `exists_outcome_eat` and so on.

`Follows text refuses m t x` says that a scan ends as a reader does, where the reader leaves the
cursor. It has a rule for each way in which scans are put together, so that a scan made of steps
follows a reader made of the same ones. `Track.Sound` is what holds of the track at every step.
-/

namespace Hotswap

/-! ## Boundaries and slices -/

/-- The bytes of characters are counted as those of their text. -/
theorem byteCount_eq (cs : List Char) : byteCount cs = (String.ofList cs).utf8ByteSize := by
  induction cs with
  | nil => rfl
  | cons c cs ih =>
    rw [String.ofList_cons, String.utf8ByteSize_append, String.utf8ByteSize_singleton, ← ih]
    rfl

/-- The text is as long as its characters. -/
theorem byteCount_toList (text : String) : byteCount text.toList = text.utf8ByteSize := by
  rw [byteCount_eq, String.ofList_toList]

/-- The parts of a text at a split of its characters. -/
theorem eq_ofList_append {text : String} {before behind : List Char}
    (h : text.toList = before ++ behind) :
    text = String.ofList before ++ String.ofList behind := by
  rw [← String.ofList_append, ← h, String.ofList_toList]

/-- Where the characters of a text are split there is a boundary. -/
theorem isBoundary_byteCount {text : String} {before behind : List Char}
    (h : text.toList = before ++ behind) : IsBoundary text (byteCount before) := by
  constructor
  · rw [← byteCount_toList, h, byteCount_append]
    exact Nat.le_add_right _ _
  · refine String.Pos.Raw.isValid_iff_exists_append.2
      ⟨_, _, eq_ofList_append h, String.Pos.Raw.ext ?_⟩
    rw [byteCount_eq]
    rfl

/-- There is a position of the text there, and it splits the text so. -/
theorem exists_pos?_eq {text : String} {before behind : List Char}
    (h : text.toList = before ++ behind) :
    ∃ p, text.pos? ⟨byteCount before⟩ = some p ∧
      p.Splits (String.ofList before) (String.ofList behind) := by
  have hvalid := (isBoundary_byteCount h).2
  refine ⟨text.pos _ hvalid, ?_, eq_ofList_append h, ?_⟩
  · unfold String.pos? String.Slice.pos?
    rw [dif_pos (String.Pos.Raw.isValidForSlice_eq_true_iff.2 hvalid.toSlice)]
    rfl
  · rw [String.offset_pos]
    refine String.Pos.Raw.ext ?_
    rw [byteCount_eq]
    rfl

/-- Between two splits of a text is what stands between them. -/
theorem slice?_eq {text : String} {before middle behind : List Char}
    (h : text.toList = before ++ (middle ++ behind)) :
    slice? text (byteCount before) (byteCount before + byteCount middle) = some middle := by
  obtain ⟨p, hp, hsplit⟩ := exists_pos?_eq h
  rw [← List.append_assoc] at h
  obtain ⟨q, hq, hsplit'⟩ := exists_pos?_eq h
  rw [byteCount_append] at hq
  rw [String.ofList_append] at hsplit hsplit'
  obtain ⟨hle, hslice⟩ := String.copy_slice_eq_iff_splits.2 ⟨_, _, hsplit, hsplit'⟩
  unfold slice?
  rw [hp, hq]
  simp only [Option.bind_eq_bind, Option.bind_some, dif_pos hle, hslice, String.toList_ofList]

namespace Cursor

/-- A cursor that the one before the whole text can reach. -/
def Within (text : String) (c : Cursor) : Prop := (ofString text).Reaches c

/-- The start of a text is within it. -/
theorem within_ofString (text : String) : (ofString text).Within text := .refl _

namespace Within

variable {text : String} {c c' : Cursor}

/-- What is reached from within a text is within it. -/
theorem reaches (h : c.Within text) (h' : c.Reaches c') : c'.Within text := h.trans h'

/-- A cursor within a text has some of its characters before it and counts their bytes. -/
theorem exists_before (h : c.Within text) :
    ∃ before, text.toList = before ++ c.rest ∧ c.column = byteCount before := by
  obtain ⟨before, hrest, hcolumn⟩ := h
  exact ⟨before, hrest, by rw [hcolumn]; exact Nat.zero_add _⟩

/-- **The column of a cursor is a boundary.** -/
theorem isBoundary (h : c.Within text) : IsBoundary text c.column := by
  obtain ⟨before, hrest, hcolumn⟩ := h.exists_before
  exact hcolumn ▸ isBoundary_byteCount hrest

/-- What has been taken is the slice up to the column. -/
theorem slice?_eq {taken rest : List Char} (h : c.Within text) (hrest : c.rest = taken ++ rest) :
    slice? text c.column (c.after taken rest).column = some taken := by
  obtain ⟨before, hbefore, hcolumn⟩ := h.exists_before
  rw [hrest] at hbefore
  show slice? text c.column (c.column + byteCount taken) = _
  rw [hcolumn]
  exact Hotswap.slice?_eq hbefore

/-- The unread characters reach to the end of the text. -/
theorem utf8ByteSize_eq (h : c.Within text) :
    text.utf8ByteSize = (c.after c.rest []).column := by
  obtain ⟨before, hbefore, hcolumn⟩ := h.exists_before
  rw [← byteCount_toList, hbefore, byteCount_append, ← hcolumn]
  rfl

end Within

/-- A reader that succeeds only behind where it began, at another boundary of the text. -/
def Forward {α : Type} (text : String) (read : Cursor → Except ScanError (α × Cursor)) : Prop :=
  ∀ c a c', c.Within text → read c = .ok (a, c') →
    c'.Within text ∧ IsBoundary text c'.column ∧ c.column < c'.column

/-- A reader that goes forward over characters goes forward in the text. -/
theorem forward_of_advances {α : Type} {read : Cursor → Except ScanError (α × Cursor)}
    (h : ∀ c a c', read c = .ok (a, c') → c.Advances c') (text : String) : Forward text read := by
  intro c a c' hwithin hread
  have hadvances := h c a c' hread
  have hwithin' := hwithin.reaches hadvances.1
  exact ⟨hwithin', hwithin'.isBoundary, hadvances.column_lt⟩

end Cursor

namespace Bytewise

open Input

/-! ## Sound tracks -/

/-- What holds of every track of a scan over a text. -/
structure Track.Sound (text : String) (t : Track) : Prop where
  /-- Every position is a boundary. -/
  boundaries : ∀ p ∈ t.visited, IsBoundary text p
  /-- No position is below an earlier one. -/
  ascends : t.visited.Pairwise (· ≥ ·)
  /-- The position is the last one visited. -/
  current : t.visited.head? = some t.position
  /-- Every call that succeeded moved the position forward. -/
  advances : ∀ span ∈ t.spans, span.start < span.stop

/-- The positions of a track lie before where it stands. -/
theorem Track.Sound.le_position {text : String} {t : Track} (h : t.Sound text) :
    ∀ p ∈ t.visited, p ≤ t.position := by
  obtain ⟨earlier, hvisited⟩ := List.head?_eq_some_iff.1 h.current
  have hascends := h.ascends
  rw [hvisited, List.pairwise_cons] at hascends
  intro p hp
  rw [hvisited, List.mem_cons] at hp
  rcases hp with rfl | hp
  · exact Nat.le_refl _
  · exact hascends.1 p hp

/-- A scan stands where a cursor stands. -/
structure StandsAt (text : String) (t : Track) (c : Cursor) : Prop where
  /-- The track is sound. -/
  sound : t.Sound text
  /-- The cursor is one in the text. -/
  within : c.Within text
  /-- The position is its column. -/
  position : t.position = c.column

/-- A track begins at the start of the text. -/
theorem standsAt_start (text : String) : StandsAt text {} (Cursor.ofString text) where
  sound := {
    boundaries := by
      intro p hp
      rw [List.mem_singleton] at hp
      exact hp ▸ (Cursor.within_ofString text).isBoundary
    ascends := List.pairwise_singleton _ _
    current := rfl
    advances := fun _ h => nomatch h }
  within := Cursor.within_ofString text
  position := rfl

/-! ## Outcomes -/

section Outcomes

variable {α β : Type} {m : Scan α} {k : α → Scan β} {t t' : Track}

/-- After a step that succeeds the next one is made. -/
theorem outcome_bind_ok {a : α} (h : m.outcome t = some (.ok a, t')) :
    (m >>= k).outcome t = (k a).outcome t' := by
  unfold Scan.outcome at h ⊢
  rw [ExceptT.run_bind, StateT.run_bind, h]
  rfl

/-- After one that fails none is. -/
theorem outcome_bind_error {halt : Halt} (h : m.outcome t = some (.error halt, t')) :
    (m >>= k).outcome t = some (.error halt, t') := by
  unfold Scan.outcome at h ⊢
  rw [ExceptT.run_bind, StateT.run_bind, h]
  rfl

/-- Asking for the position moves nothing. -/
theorem outcome_position (t : Track) : position.outcome t = some (.ok t.position, t) := rfl

/-- Wording faults for a reference changes nothing else. -/
theorem outcome_within (text : String) (m : Scan α) (t : Track) :
    (within text m).outcome t =
      (m.outcome t).map fun r => (r.1.mapError (Halt.inReference text), r.2) := by
  unfold Scan.outcome within
  rw [ExceptT.run_adapt, StateT.run_map]
  rfl

end Outcomes

/-! ## One step -/

section Steps

variable {text : String} {t : Track} {c : Cursor}

/-- A slice between boundaries is given. -/
theorem outcome_slice {start stop : Nat} {cs : List Char} (h : slice? text start stop = some cs)
    (t : Track) : (slice text start stop).outcome t = some (.ok cs, t) := by
  unfold slice
  rw [h]
  rfl

/-- What is not read yet is what the cursor has. -/
theorem outcome_unread (h : StandsAt text t c) :
    (unread text).outcome t = some (.ok c.rest, t) := by
  unfold unread
  rw [outcome_bind_ok (outcome_position t), h.position, h.within.utf8ByteSize_eq]
  exact outcome_slice (h.within.slice?_eq (List.append_nil _).symm) t

/-- The next character is the one that the cursor has. -/
theorem outcome_peek (h : StandsAt text t c) :
    (peek text).outcome t = some (.ok c.rest.head?, t) := by
  unfold peek
  rw [outcome_bind_ok (outcome_unread h)]
  rfl

/-- Moving over unread characters leads to the cursor behind them. -/
theorem exists_outcome_move (h : StandsAt text t c) {taken rest : List Char} {bytes : Nat}
    (hrest : c.rest = taken ++ rest) (hbytes : bytes = byteCount taken) :
    ∃ t', (move bytes).outcome t = some (.ok (), t') ∧ StandsAt text t' (c.after taken rest) := by
  have hwithin : (c.after taken rest).Within text := h.within.reaches (.after hrest)
  have hposition : t.position + bytes = (c.after taken rest).column := by
    rw [h.position, hbytes]
    rfl
  -- only the new position is to be checked, the track behind it is as it was
  refine ⟨_, rfl, ⟨?_, ?_, rfl, h.sound.advances⟩, hwithin, hposition⟩
  · intro p hp
    rcases List.mem_cons.1 hp with rfl | hp
    · exact hposition ▸ hwithin.isBoundary
    · exact h.sound.boundaries p hp
  · refine List.pairwise_cons.2 ⟨fun p hp => ?_, h.sound.ascends⟩
    exact (h.sound.le_position p hp).trans (Nat.le_add_right _ _)

/-- A call that began before the position may be noted. -/
theorem exists_outcome_note (h : StandsAt text t c) {start : Nat} (hlt : start < c.column)
    (reader : Reader) :
    ∃ t', (note reader start).outcome t = some (.ok (), t') ∧ StandsAt text t' c := by
  refine ⟨_, rfl, ⟨h.sound.boundaries, h.sound.ascends, h.sound.current, ?_⟩, h.within, h.position⟩
  intro span hspan
  rcases List.mem_cons.1 hspan with rfl | hspan
  · exact h.position.symm ▸ hlt
  · exact h.sound.advances span hspan

/-- A character that the cursor has is taken. -/
theorem exists_outcome_eat {ch : Char} {c' : Cursor} (h : StandsAt text t c)
    (heat : c.eat? [ch] = some c') :
    ∃ t', (eat text ch).outcome t = some (.ok true, t') ∧ StandsAt text t' c' := by
  obtain ⟨rest, hrest, rfl⟩ := Cursor.exists_of_eat? heat
  obtain ⟨t', hmove, hstands⟩ := exists_outcome_move h hrest rfl
  refine ⟨t', ?_, hstands⟩
  unfold eat
  rw [outcome_bind_ok (outcome_peek h), if_pos (by rw [hrest]; rfl)]
  exact (outcome_bind_ok hmove).trans rfl

/-- One that it has not is left. -/
theorem outcome_eat_of_none {ch : Char} (h : StandsAt text t c) (heat : c.eat? [ch] = none) :
    (eat text ch).outcome t = some (.ok false, t) := by
  unfold eat
  rw [outcome_bind_ok (outcome_peek h), if_neg (Cursor.head_of_eat?_eq_none heat)]
  rfl

/-- A text that the cursor has is taken. -/
theorem exists_outcome_eatText {s : String} {c' : Cursor} (h : StandsAt text t c)
    (heat : c.eat? s.toList = some c') :
    ∃ t', (eatText text s).outcome t = some (.ok true, t') ∧ StandsAt text t' c' := by
  obtain ⟨rest, hrest, rfl⟩ := Cursor.exists_of_eat? heat
  obtain ⟨t', hmove, hstands⟩ := exists_outcome_move h hrest (byteCount_toList s).symm
  refine ⟨t', ?_, hstands⟩
  unfold eatText
  rw [outcome_bind_ok (outcome_unread h),
    if_pos (by rw [hrest]; exact List.isPrefixOf_iff_prefix.2 (List.prefix_append _ _)),
    outcome_bind_ok hmove]
  rfl

/-- One that it has not is left. -/
theorem outcome_eatText_of_none {s : String} (h : StandsAt text t c)
    (heat : c.eat? s.toList = none) : (eatText text s).outcome t = some (.ok false, t) := by
  have hstarts : ¬ s.toList.isPrefixOf c.rest = true := by
    intro hstarts
    unfold Cursor.eat? at heat
    rw [if_pos hstarts] at heat
    cases heat
  unfold eatText
  rw [outcome_bind_ok (outcome_unread h), if_neg hstarts]
  rfl

/-- A character that is wanted and there is taken. -/
theorem exists_outcome_expect {ch : Char} {c' : Cursor} (h : StandsAt text t c)
    (heat : c.eat? [ch] = some c') :
    ∃ t', (expect text ch).outcome t = some (.ok (), t') ∧ StandsAt text t' c' := by
  obtain ⟨t', heaten, hstands⟩ := exists_outcome_eat h heat
  refine ⟨t', ?_, hstands⟩
  unfold expect
  exact (outcome_bind_ok heaten).trans rfl

end Steps

/-! ## Scans that follow a reader -/

/-- A scan follows a reader of unread characters: both have a result, and the scan stands where the
reader leaves the cursor, or both refuse the text, for faults as `refuses` says. -/
def Follows {ε α : Type} (text : String) (refuses : ε → FormatError → Prop) (m : Scan α)
    (t : Track) : Except ε (α × Cursor) → Prop
  | .ok (a, c) => ∃ t', m.outcome t = some (.ok a, t') ∧ StandsAt text t' c
  | .error e => ∃ f t', m.outcome t = some (.error (.refused f), t') ∧ refuses e f ∧ t'.Sound text

/-- A fault at a cursor is reported with the text, at a boundary of it. -/
structure IsFault (text : String) (e : ScanError) (f : FormatError) : Prop where
  /-- It is reported with its column. -/
  reported : f = .invalidTypeName text e.column e.reason
  /-- The column is a boundary. -/
  boundary : IsBoundary text e.column

namespace Follows

variable {ε α β : Type} {text : String} {refuses : ε → FormatError → Prop} {t t' : Track}
  {c : Cursor}

/-- A reader that gives what it has follows one that does. -/
theorem pure (h : StandsAt text t c) (a : α) :
    Follows text refuses (Pure.pure a : Scan α) t (.ok (a, c)) := ⟨t, rfl, h⟩

/-- A fault follows the fault at the same place. -/
theorem refuse (h : StandsAt text t c) (reason : String) :
    Follows text (IsFault text) (Input.refuse text reason : Scan α) t
      (.error (c.fail reason)) := by
  refine ⟨_, t, rfl, ⟨?_, h.within.isBoundary⟩, h.sound⟩
  rw [h.position]
  rfl

/-- What a scan follows is known from a scan with the same outcome. -/
theorem congr {m m' : Scan α} {x : Except ε (α × Cursor)} (houtcome : m.outcome t = m'.outcome t')
    (h : Follows text refuses m' t' x) : Follows text refuses m t x := by
  cases x with
  | error e =>
    obtain ⟨f, t'', hm, hfault⟩ := h
    exact ⟨f, t'', houtcome.trans hm, hfault⟩
  | ok r =>
    obtain ⟨t'', hm, hstands⟩ := h
    exact ⟨t'', houtcome.trans hm, hstands⟩

/-- A step that has a result and that the reader does not make. -/
theorem step {m : Scan β} {k : β → Scan α} {b : β} {x : Except ε (α × Cursor)}
    (hm : m.outcome t = some (.ok b, t')) (h : Follows text refuses (k b) t' x) :
    Follows text refuses (m >>= k) t x :=
  congr (outcome_bind_ok hm) h

/-- A fault ends the scan. -/
theorem error {m : Scan β} {k : β → Scan α} {e : ε} (h : Follows text refuses m t (.error e)) :
    Follows text refuses (m >>= k) t (.error e) := by
  obtain ⟨f, t', hm, hfault⟩ := h
  exact ⟨f, t', outcome_bind_error hm, hfault⟩

/-- Readers that are followed one after another are followed. -/
theorem bind {m : Scan β} {k : β → Scan α} {x : Except ε (β × Cursor)}
    {f : β × Cursor → Except ε (α × Cursor)} (h : Follows text refuses m t x)
    (hk : ∀ b c' t', x = .ok (b, c') → StandsAt text t' c' →
      Follows text refuses (k b) t' (f (b, c'))) :
    Follows text refuses (m >>= k) t (x >>= f) := by
  cases x with
  | error e => exact error h
  | ok r =>
    obtain ⟨t', hm, hstands⟩ := h
    exact step hm (hk _ _ _ rfl hstands)

/-- The two ways that a look at the next character can go. -/
theorem ifPeek {m m' : Scan α} {x : Except ε (α × Cursor)} (h : StandsAt text t c) (ch : Char)
    (hyes : c.rest.head? = some ch → Follows text refuses m t x)
    (hno : c.rest.head? ≠ some ch → Follows text refuses m' t x) :
    Follows text refuses (peek text >>= fun next => if next = some ch then m else m') t x := by
  refine step (outcome_peek h) ?_
  split
  · rename_i hnext
    exact hyes hnext
  · rename_i hnext
    exact hno hnext

/-- The two ways that eating a text can go. -/
theorem ifEatText {m m' : Scan α} {x : Except ε (α × Cursor)} (h : StandsAt text t c) {s : String}
    (cs : List Char) (hs : s.toList = cs)
    (hyes : ∀ c' t', c.eat? cs = some c' → StandsAt text t' c' → Follows text refuses m t' x)
    (hno : c.eat? cs = none → Follows text refuses m' t x) :
    Follows text refuses (eatText text s >>= fun eaten => if eaten then m else m') t x := by
  subst hs
  cases heat : c.eat? s.toList with
  | some c' =>
    obtain ⟨t', heaten, hstands⟩ := exists_outcome_eatText h heat
    exact step heaten (hyes c' t' heat hstands)
  | none => exact step (outcome_eatText_of_none h heat) (hno heat)

/-- The two ways that eating a character can go. -/
theorem ifEat {m m' : Scan α} {x : Except ε (α × Cursor)} (h : StandsAt text t c) (ch : Char)
    (hyes : ∀ c' t', c.eat? [ch] = some c' → StandsAt text t' c' → Follows text refuses m t' x)
    (hno : c.eat? [ch] = none → Follows text refuses m' t x) :
    Follows text refuses (eat text ch >>= fun eaten => if eaten then m else m') t x := by
  cases heat : c.eat? [ch] with
  | some c' =>
    obtain ⟨t', heaten, hstands⟩ := exists_outcome_eat h heat
    exact step heaten (hyes c' t' heat hstands)
  | none => exact step (outcome_eat_of_none h heat) (hno heat)

/-- A call is noted, because what it reads takes the cursor forward. -/
theorem noting {m : Scan α} {x : Except ε (α × Cursor)} (h : StandsAt text t c)
    (hm : Follows text refuses m t x) (hadvances : ∀ a c', x = .ok (a, c') → c.Advances c')
    (reader : Reader) : Follows text refuses (Bytewise.noting reader m) t x := by
  refine step (outcome_position t) ?_
  cases x with
  | error e => exact error hm
  | ok r =>
    obtain ⟨t', houtcome, hstands⟩ := hm
    have hlt : t.position < r.2.column := h.position ▸ (hadvances r.1 r.2 rfl).column_lt
    obtain ⟨t'', hnote, hstands⟩ := exists_outcome_note hstands hlt reader
    exact step houtcome (step hnote (pure hstands r.1))

end Follows

end Bytewise

end Hotswap
