import Hotswap.Proofs.TypeName.Boundaries
import Mathlib

/-!
# A scan by byte positions stays on boundaries

The scanner of `Hotswap.Proofs.TypeName.Bytewise` trusts its position. It may: on every text it
ends, with the answer of the reader, and it does not slice off the boundaries, lower the depth of a
segment below zero, move back, or leave a call that succeeded where it began (`readers_safe`).

* `follows_segmentLoop`, `follows_nameLoop`: a name is scanned as `takeName` splits it off. The
  readers have one count for the whole name, the scanner begins one for each segment, so the segment
  is cut out of the name first (`takeName_succ`).
* `follows_read`: types and lists are scanned as they are read, by induction on the reader's fuel.
  This is where the recursion of the scanner, which has no fuel, is shown to end.
* `answers_wholeType`, `answers_wholeMethodRef`, `answers_wholeFieldRef`: whole texts.
-/

namespace Hotswap

namespace Bytewise

open Input

/-! ## Loops over characters -/

section Readers

variable {text : String} {t : Track} {c : Cursor}

/-- Skipping ends behind the characters of a kind, if each is taken for as wide as it is. -/
theorem exists_outcome_skipWhile {kind : Char → Bool} {width : Char → Nat}
    (hwidth : ∀ ch, kind ch = true → width ch = ch.utf8Size) (h : StandsAt text t c) :
    ∃ t', (skipWhile text kind width).outcome t = some (.ok (), t') ∧
      StandsAt text t' (c.after (c.rest.takeWhile kind) (c.rest.dropWhile kind)) := by
  induction hrest : c.rest generalizing c t with
  | nil =>
    refine ⟨t, ?_, ?_⟩
    · rw [skipWhile, outcome_bind_ok (outcome_peek h), hrest]
      rfl
    · have hstays : StandsAt text t (c.after [] c.rest) := h
      rw [hrest] at hstays
      exact hstays
  | cons ch rest ih =>
    rw [skipWhile, outcome_bind_ok (outcome_peek h), hrest]
    dsimp only [List.head?_cons]
    by_cases hkind : kind ch = true
    · have hbytes : width ch = byteCount [ch] := hwidth ch hkind
      have hfirst : c.rest = [ch] ++ rest := hrest
      obtain ⟨t₁, hmove, hstands⟩ := exists_outcome_move h hfirst hbytes
      obtain ⟨t₂, hskip, hstands⟩ := ih hstands rfl
      refine ⟨t₂, ?_, ?_⟩
      · rw [if_pos hkind, outcome_bind_ok hmove, hskip]
      · rw [List.takeWhile_cons_of_pos hkind, List.dropWhile_cons_of_pos hkind]
        rw [Cursor.after_after] at hstands
        exact hstands
    · refine ⟨t, ?_, ?_⟩
      · rw [if_neg hkind]
        rfl
      · rw [List.takeWhile_cons_of_neg hkind, List.dropWhile_cons_of_neg hkind, ← hrest]
        exact h

/-- Blanks are skipped at the same places as by the reader of characters. -/
theorem exists_outcome_skipBlanks (h : StandsAt text t c) :
    ∃ t', (skipBlanks text).outcome t = some (.ok (), t') ∧ StandsAt text t' c.skipBlanks :=
  exists_outcome_skipWhile (fun _ _ => rfl) h

/-- A digit takes one byte. -/
theorem utf8Size_of_isDigit {ch : Char} (h : ch.isDigit = true) : ch.utf8Size = 1 := by
  obtain ⟨-, hhigh⟩ := Decimal.toNat_of_isDigit h
  rw [Char.utf8Size_eq_one_iff, UInt32.le_iff_toNat_le]
  exact hhigh.trans (by decide)

/-- The digits of an index are read alike. -/
theorem follows_digits (h : StandsAt text t c) :
    Follows text (IsFault text) (digits text) t c.digits := by
  have hwidth : ∀ ch : Char, ch.isDigit = true → 1 = ch.utf8Size :=
    fun _ hdigit => (utf8Size_of_isDigit hdigit).symm
  obtain ⟨t₁, hskip, hstands⟩ := exists_outcome_skipWhile hwidth h
  unfold digits
  refine Follows.step (outcome_position t)
    (Follows.step hskip (Follows.step (outcome_position t₁) ?_))
  rw [h.position, hstands.position]
  refine Follows.step
    (outcome_slice (h.within.slice?_eq List.takeWhile_append_dropWhile.symm) t₁) ?_
  unfold Cursor.digits
  dsimp only
  split
  · exact Follows.refuse hstands _
  · exact Follows.pure hstands _

end Readers

/-- Splits off what is left of a generated segment, up to the bracket that closes it. `depth` counts
the brackets that are open inside. -/
def takeSegment : (depth : Nat) → List Char → Option (List Char × List Char)
  | _, [] => none
  | depth, c :: rest =>
    if c = '>' ∧ depth = 0 then some ([c], rest)
    else
      let depth := if c = '<' then depth + 1 else if c = '>' then depth - 1 else depth
      (takeSegment depth rest).map fun (taken, rest) => (c :: taken, rest)

/-- A name goes on behind the segment that is open. -/
theorem takeName_succ (depth : Nat) (cs : List Char) :
    takeName (depth + 1) false cs = (takeSegment depth cs).bind fun (taken, rest) =>
      (takeName 0 false rest).map fun (name, rest) => (taken ++ name, rest) := by
  induction cs generalizing depth with
  | nil => rfl
  | cons c rest ih =>
    rw [takeName, takeSegment]
    by_cases hopen : c = '<'
    · subst hopen
      simp [ih, Option.map_bind, Option.bind_map, Function.comp_def]
    · by_cases hclose : c = '>'
      · subst hclose
        cases depth with
        | zero => simp
        | succ depth => simp [ih, Option.map_bind, Option.bind_map, Function.comp_def]
      · simp [hopen, hclose, ih, Option.map_bind, Option.bind_map, Function.comp_def]

/-- A segment is taken off with the bracket that closes it. -/
theorem takeSegment_eq {depth : Nat} {cs taken rest : List Char}
    (h : takeSegment depth cs = some (taken, rest)) :
    cs = taken ++ rest ∧ taken.getLast? = some '>' := by
  induction cs generalizing depth taken with
  | nil => cases h
  | cons c cs ih =>
    rw [takeSegment] at h
    split at h
    · rename_i hclose
      cases h
      exact ⟨rfl, by rw [hclose.1]; rfl⟩
    · obtain ⟨⟨taken₁, rest₁⟩, htaken, heq⟩ := Option.map_eq_some_iff.1 h
      cases heq
      obtain ⟨hcs, hlast⟩ := ih htaken
      exact ⟨by rw [hcs, List.cons_append], by rw [List.getLast?_cons, hlast]; rfl⟩

/-- Where a reader is that has taken some characters, or its fault if a segment is never closed. -/
def passing (c : Cursor) : Option (List Char × List Char) → Except ScanError (Unit × Cursor)
  | none => .error ((c.after c.rest []).fail "unterminated '<' in name")
  | some (taken, rest) => .ok ((), c.after taken rest)

/-- What is taken off behind a piece is taken off with that piece. -/
theorem passing_after {c : Cursor} {taken rest : List Char} (h : c.rest = taken ++ rest)
    (split : Option (List Char × List Char)) :
    passing (c.after taken rest) split =
      passing c (split.map fun (more, rest) => (taken ++ more, rest)) := by
  cases split with
  | none =>
    show Except.error (((c.after taken rest).after rest []).fail _) = _
    rw [Cursor.after_after, ← h]
    rfl
  | some split =>
    show Except.ok ((), (c.after taken rest).after split.1 split.2) = _
    rw [Cursor.after_after]
    rfl

section Names

variable {text : String} {t : Track} {c : Cursor}

/-- At the end there is no character to pass. -/
theorem outcome_bump_nil (h : StandsAt text t c) (hrest : c.rest = []) :
    (bump text).outcome t = some (.ok none, t) := by
  unfold bump
  rw [outcome_bind_ok (outcome_peek h), hrest]
  rfl

/-- Otherwise the next character is passed. -/
theorem exists_outcome_bump {ch : Char} {rest : List Char} (h : StandsAt text t c)
    (hrest : c.rest = [ch] ++ rest) :
    ∃ t', (bump text).outcome t = some (.ok (some ch), t') ∧
      StandsAt text t' (c.after [ch] rest) := by
  obtain ⟨t', hmove, hstands⟩ := exists_outcome_move h hrest rfl
  refine ⟨t', ?_, hstands⟩
  unfold bump
  rw [outcome_bind_ok (outcome_peek h), hrest]
  exact (outcome_bind_ok hmove).trans rfl

/-- **The depth is not lowered below zero**: one bracket at least is open until the segment ends. -/
theorem follows_segmentLoop (depth : Nat) (h : StandsAt text t c) :
    Follows text (IsFault text) (segmentLoop text (depth + 1)) t
      (passing c (takeSegment depth c.rest)) := by
  induction hrest : c.rest generalizing c t depth with
  | nil =>
    rw [segmentLoop]
    refine Follows.step (outcome_bump_nil h hrest) ?_
    have hend : c.after c.rest [] = c := by
      have hstays : c.after [] c.rest = c := rfl
      rwa [hrest] at hstays ⊢
    show Follows text _ _ t (.error ((c.after c.rest []).fail _))
    rw [hend]
    exact Follows.refuse h _
  | cons ch rest ih =>
    have hfirst : c.rest = [ch] ++ rest := hrest
    obtain ⟨t', hbump, hstands⟩ := exists_outcome_bump h hfirst
    have hloop : ∀ depth, Follows text (IsFault text) (segmentLoop text (depth + 1)) t'
        (passing c ((takeSegment depth rest).map fun (taken, rest) => ([ch] ++ taken, rest))) := by
      intro depth
      rw [← passing_after hfirst]
      exact ih depth hstands rfl
    rw [segmentLoop, takeSegment]
    refine Follows.step hbump ?_
    dsimp only
    by_cases hopen : ch = '<'
    · subst hopen
      simpa using hloop (depth + 1)
    · rw [if_neg hopen]
      by_cases hclose : ch = '>'
      · subst hclose
        rw [if_pos rfl]
        refine Follows.step (b := depth) rfl ?_
        cases depth with
        | zero => exact Follows.pure hstands ()
        | succ depth => simpa using hloop depth
      · rw [if_neg hclose, if_neg (fun h => hclose h.1), if_neg hopen, if_neg hclose]
        exact hloop depth

/-- A segment in brackets is read alike. -/
theorem follows_segment {rest : List Char} (h : StandsAt text t c)
    (hrest : c.rest = ['<'] ++ rest) :
    Follows text (IsFault text) (segment text) t
      (passing c ((takeSegment 0 rest).map fun (inner, rest) => (['<'] ++ inner, rest))) := by
  obtain ⟨t', hbump, hstands⟩ := exists_outcome_bump h hrest
  have hloop := follows_segmentLoop 0 hstands
  rw [passing_after hrest] at hloop
  refine Follows.noting h ?_ ?_ .segment
  · rw [segmentLoop]
    exact Follows.step hbump hloop
  · intro u c' hok
    cases hsegment : takeSegment 0 rest with
    | none =>
      rw [hsegment] at hok
      cases hok
    | some split =>
      rw [hsegment] at hok
      cases hok
      refine .after ?_ (List.cons_ne_nil _ _)
      rw [hrest, (takeSegment_eq hsegment).1, List.append_assoc]

/-- Whether a segment may open is seen from the characters before the position. -/
theorem outcome_mayOpenAt {taken rest : List Char} (h₀ : c.Within text)
    (hrest : c.rest = taken ++ rest) (h : StandsAt text t (c.after taken rest)) :
    (mayOpenAt text c.column).outcome t = some (.ok (mayOpen taken), t) := by
  have hhere : t.position = c.column + byteCount taken := h.position
  unfold mayOpenAt
  rw [outcome_bind_ok (outcome_position t)]
  by_cases hnil : taken = []
  · subst hnil
    have hstart : t.position = c.column := hhere
    rw [if_pos hstart]
    rfl
  · have hpositive : 0 < byteCount taken :=
      (List.length_pos_iff.2 hnil).trans_le (length_le_byteCount taken)
    obtain ⟨before, hbefore, hcolumn⟩ := h₀.exists_before
    have hslice : slice? text 0 t.position = some (before ++ taken) := by
      rw [hhere, hcolumn, ← byteCount_append]
      have hall : text.toList = [] ++ ((before ++ taken) ++ rest) := by
        rw [hbefore, hrest, List.append_assoc, List.nil_append]
      simpa [byteCount] using slice?_eq hall
    obtain ⟨last, hlast⟩ := Option.isSome_iff_exists.1 (List.getLast?_isSome.2 hnil)
    rw [if_neg (by omega), outcome_bind_ok (outcome_slice hslice t),
      List.getLast?_append_of_ne_nil _ hnil, mayOpen, hlast]
    rfl

/-- A scan of a name goes on as the reader does. -/
theorem follows_nameLoop {taken rest : List Char} (h₀ : c.Within text)
    (hrest : c.rest = taken ++ rest) (h : StandsAt text t (c.after taken rest)) :
    Follows text (IsFault text) (nameLoop text c.column) t
      (passing c ((takeName 0 (mayOpen taken) rest).map fun (more, rest) =>
        (taken ++ more, rest))) := by
  -- on the characters that are left, as a segment takes several of them in one round
  induction hlength : rest.length using Nat.strong_induction_on generalizing taken rest t with
  | _ n ih =>
    rw [nameLoop]
    refine Follows.step (outcome_mayOpenAt h₀ hrest h) (Follows.step (outcome_peek h) ?_)
    cases rest with
    | nil =>
      refine Follows.pure ?_ ()
      rw [List.append_nil]
      exact h
    | cons ch rest =>
      have hfirst : (c.after taken (ch :: rest)).rest = [ch] ++ rest := rfl
      dsimp only [Cursor.after, List.head?_cons]
      rw [takeName]
      by_cases hopen : ch = '<' ∧ mayOpen taken = true
      · rw [if_pos hopen, if_pos hopen, takeName_succ]
        obtain ⟨rfl, -⟩ := hopen
        have hsegment := follows_segment h hfirst
        rw [passing_after hrest] at hsegment
        cases hinner : takeSegment 0 rest with
        | none =>
          rw [hinner] at hsegment
          exact Follows.error hsegment
        | some split =>
          obtain ⟨inner, behind⟩ := split
          rw [hinner] at hsegment
          obtain ⟨t', hm, hstands⟩ := hsegment
          obtain ⟨rfl, hlast⟩ := takeSegment_eq hinner
          -- a segment ends in a bracket, so none may open right behind it
          have hclosed : mayOpen (taken ++ (['<'] ++ inner)) = false := by
            simp [mayOpen, List.getLast?_append, List.getLast?_cons, hlast]
          have hloop := ih behind.length (by simp at hlength; omega)
            (by simpa using hrest) hstands rfl
          rw [hclosed] at hloop
          refine Follows.step hm ?_
          simpa [Option.map_bind, Function.comp_def] using hloop
      · rw [if_neg hopen, if_neg hopen]
        by_cases hchar : isNameChar ch = true
        · rw [if_pos hchar, if_pos hchar]
          obtain ⟨t', hbump, hstands⟩ := exists_outcome_bump h hfirst
          rw [Cursor.after_after] at hstands
          have hloop := ih rest.length (by simp at hlength; omega)
            (by simpa using hrest) hstands rfl
          rw [mayOpen_append_singleton] at hloop
          refine Follows.step hbump ?_
          simpa [Function.comp_def] using hloop
        · rw [if_neg hchar, if_neg hchar]
          refine Follows.pure ?_ ()
          rw [List.append_nil]
          exact h

/-- **A name is read alike.** -/
theorem follows_name (h : StandsAt text t c) :
    Follows text (IsFault text) (name text) t c.name := by
  refine Follows.noting h ?_ (fun _ _ => Cursor.advances_of_name) .name
  have hloop : Follows text (IsFault text) (nameLoop text c.column) t
      (passing c (takeName 0 true c.rest)) := by
    have hnone : c.rest = [] ++ c.rest := rfl
    simpa [mayOpen_nil] using follows_nameLoop h.within hnone h
  refine Follows.step (outcome_position t) ?_
  rw [h.position]
  unfold Cursor.name
  split
  · rename_i hnone
    rw [hnone] at hloop
    exact Follows.error hloop
  · rename_i rest htaken
    rw [htaken] at hloop
    obtain ⟨t', hm, hstands⟩ := hloop
    have hstart : t'.position = c.column := hstands.position
    refine Follows.step hm (Follows.step (outcome_position t') ?_)
    rw [if_pos hstart]
    exact Follows.refuse hstands _
  · rename_i taken rest hnil htaken
    rw [htaken] at hloop
    obtain ⟨t', hm, hstands⟩ := hloop
    have hlt := (Cursor.Advances.after (takeName_eq htaken) hnil).column_lt
    refine Follows.step hm (Follows.step (outcome_position t') ?_)
    rw [hstands.position, if_neg hlt.ne']
    exact Follows.step (outcome_slice (h.within.slice?_eq (takeName_eq htaken)) t')
      (Follows.pure hstands _)

end Names

/-! ## Types -/

section Types

variable {text : String} {t : Track} {c : Cursor}

/-- A suffix that is eaten is the first one that is read. -/
theorem readSuffixes_of_eat? {ty : TypeName} {s : Suffix} {c' : Cursor}
    (h : c.eat? s.text.toList = some c') :
    readSuffixes ty c.rest c.column = readSuffixes (.suffixed ty s) c'.rest c'.column := by
  obtain ⟨rest, hrest, rfl⟩ := Cursor.exists_of_eat? h
  rw [hrest, readSuffixes_suffix]
  rfl

/-- Suffixes are read alike. -/
theorem follows_suffixes (ty : TypeName) (h : StandsAt text t c) :
    Follows text (IsFault text) (suffixes text ty) t (readSuffixes ty c.rest c.column) := by
  induction hlength : c.rest.length using Nat.strong_induction_on generalizing ty c t with
  | _ n ih =>
    have hloop : ∀ (s : Suffix) c' t', c.eat? s.text.toList = some c' → StandsAt text t' c' →
        Follows text (IsFault text) (suffixes text (.suffixed ty s)) t'
          (readSuffixes ty c.rest c.column) := by
      intro s c' t' heaten hstands
      have hadvances := Cursor.advances_of_eat? (by cases s <;> simp [Suffix.text]) heaten
      rw [readSuffixes_of_eat? heaten]
      exact ih _ (hlength ▸ hadvances.2) _ hstands rfl
    rw [suffixes]
    refine Follows.ifEatText h _ rfl (hloop .array) fun hbrackets => ?_
    refine Follows.ifEat h _ (hloop .byRef) fun hamp => ?_
    refine Follows.ifEat h _ (hloop .pointer) fun hstar => ?_
    unfold readSuffixes
    split
    · rename_i hrest
      rw [Cursor.eat?_append hrest] at hbrackets
      cases hbrackets
    · rename_i hrest
      rw [Cursor.eat?_append hrest] at hamp
      cases hamp
    · rename_i hrest
      rw [Cursor.eat?_append hrest] at hstar
      cases hstar
    · rename_i hrest
      refine Follows.ifPeek h _ (fun _ => Follows.refuse h _) fun hnext => ?_
      rw [hrest] at hnext
      exact absurd rfl hnext
    · rename_i hother
      refine Follows.ifPeek h _ (fun hnext => ?_) fun _ => Follows.pure h ty
      obtain ⟨rest, hrest⟩ := List.head?_eq_some_iff.1 hnext
      exact absurd hrest (hother _)

/-- Lists are scanned as they are read, as long as the reader's fuel reaches to the end. -/
def FollowsItems (text : String) (fuel : Nat) : Prop :=
  ∀ {close : Char} {c : Cursor} {t : Track}, c.rest.length + 1 < fuel → StandsAt text t c →
    Follows text (IsFault text) (someItems text close) t (readTypes fuel close c)

/-- Items of a list are read alike, if what stands in them is. -/
theorem follows_items {fuel : Nat} (ih : FollowsItems text fuel) {close : Char}
    (hfuel : c.rest.length + 1 < fuel) (h : StandsAt text t c) :
    Follows text (IsFault text) (items text close) t (readItems fuel close c) := by
  have hlength := c.reaches_skipBlanks.length_le
  obtain ⟨t', hskip, hstands⟩ := exists_outcome_skipBlanks h
  rw [items, readItems]
  refine Follows.step hskip (Follows.ifEat hstands _ (fun c' t'' heat hstands => ?_) fun heat => ?_)
  · rw [heat]
    exact Follows.pure hstands []
  · rw [heat]
    exact ih (by omega) hstands

/-- So is a list with its brackets. -/
theorem follows_list {fuel : Nat} (ih : FollowsItems text fuel) {opening close : Char}
    {c' : Cursor} (heat : c.eat? [opening] = some c') (hfuel : c'.rest.length + 1 < fuel)
    (h : StandsAt text t c) :
    Follows text (IsFault text) (list text opening close) t (readItems fuel close c') := by
  obtain ⟨t', hexpect, hstands⟩ := exists_outcome_expect h heat
  rw [list]
  refine Follows.noting h (Follows.step hexpect (follows_items ih hfuel hstands)) ?_ .list
  intro ts c'' hok
  exact .of_reaches (Cursor.advances_of_eat? (List.cons_ne_nil _ _) heat).1
    (listRead_of_readItems hok).advances

/-- So is a type without its suffixes. -/
theorem follows_base {fuel : Nat} (ih : FollowsItems text fuel) (hfuel : c.rest.length ≤ fuel)
    (h : StandsAt text t c) :
    Follows text (IsFault text) (base text) t (readBase fuel c) := by
  rw [base, readBase]
  refine Follows.ifEatText h ['!', '!'] rfl (fun c' t' heat hstands => ?_) fun hmarks => ?_
  · rw [heat]
    exact Follows.bind (follows_digits hstands) fun _ _ _ _ hstands => Follows.pure hstands _
  · rw [hmarks]
    refine Follows.ifEat h '!' (fun c' t' heat hstands => ?_) fun hmark => ?_
    · rw [heat]
      exact Follows.bind (follows_digits hstands) fun _ _ _ _ hstands => Follows.pure hstands _
    · rw [hmark]
      refine Follows.bind (follows_name h) fun name c₁ t₁ hname hstands => ?_
      have hname := (Cursor.advances_of_name hname).2
      dsimp only
      refine Follows.ifPeek hstands '<' (fun hnext => ?_) fun hnext => ?_
      · obtain ⟨c₂, heat⟩ := Cursor.exists_eat?_of_head hnext
        have hopen := (Cursor.advances_of_eat? (List.cons_ne_nil _ _) heat).2
        rw [heat]
        exact Follows.bind (follows_list ih heat (by omega) hstands)
          fun _ _ _ _ hstands => Follows.pure hstands _
      · rw [Cursor.eat?_of_head hnext]
        exact Follows.pure hstands _

/-- **Types and lists are scanned as they are read**, and so the recursion ends. Each call in the
other direction is behind a character at least, so one unit of fuel for a character is enough. -/
theorem follows_read (fuel : Nat) :
    (∀ {c : Cursor} {t : Track}, c.rest.length < fuel → StandsAt text t c →
      Follows text (IsFault text) (type text) t (readType fuel c)) ∧ FollowsItems text fuel := by
  induction fuel with
  | zero => exact ⟨fun hfuel => absurd hfuel (Nat.not_lt_zero _), fun hfuel => by omega⟩
  | succ fuel ih =>
    obtain ⟨ihType, ihItems⟩ := ih
    refine ⟨fun {c t} hfuel h => ?_, fun {close c t} hfuel h => ?_⟩
    · obtain ⟨t₁, hskip, hstands⟩ := exists_outcome_skipBlanks h
      have hlength := c.reaches_skipBlanks.length_le
      rw [type]
      refine Follows.noting h (Follows.step hskip ?_)
        (fun _ _ hok => (typeRead_of_readType hok).advances) .type
      rw [readType_succ]
      exact Follows.bind (follows_base ihItems (by omega) hstands)
        fun base c' t' _ hstands => follows_suffixes base hstands
    · rw [someItems, readTypes]
      refine Follows.bind (ihType (by omega) h) fun ty c₁ t₁ htype hstands => ?_
      have htype := (typeRead_of_readType htype).advances.2
      have hlength := c₁.reaches_skipBlanks.length_le
      obtain ⟨t₂, hskip, hstands⟩ := exists_outcome_skipBlanks hstands
      refine Follows.step hskip ?_
      dsimp only
      refine Follows.ifEat hstands ',' (fun c₂ t₃ heat hstands => ?_) fun hcomma => ?_
      · have hcomma := (Cursor.advances_of_eat? (List.cons_ne_nil _ _) heat).2
        rw [heat]
        exact Follows.bind (ihItems (by omega) hstands)
          fun _ _ _ _ hstands => Follows.pure hstands _
      · rw [hcomma]
        refine Follows.ifEat hstands close (fun c₂ t₃ heat hstands => ?_) fun hclose => ?_
        · rw [heat]
          exact Follows.pure hstands _
        · rw [hclose]
          exact Follows.refuse hstands _

/-- **A type is read alike.** -/
theorem follows_type (h : StandsAt text t c) :
    Follows text (IsFault text) (type text) t c.type :=
  (follows_read c.fuel).1 (by unfold Cursor.fuel; omega) h

/-- So is a list of types. -/
theorem follows_types {opening close : Char} {c' : Cursor} (heat : c.eat? [opening] = some c')
    (h : StandsAt text t c) :
    Follows text (IsFault text) (list text opening close) t (c'.types close) :=
  follows_list (follows_read c'.fuel).2 heat (by unfold Cursor.fuel; omega) h

end Types

/-! ## Whole texts -/

/-- A scan of a whole text ends as a reader does, wherever that is. -/
def Answers {ε α : Type} (text : String) (refuses : ε → FormatError → Prop) (m : Scan α)
    (t : Track) (x : Except ε α) : Prop :=
  ∃ c, Follows text refuses m t (x.map fun a => (a, c))

namespace Answers

variable {ε α β : Type} {text : String} {refuses : ε → FormatError → Prop} {t t' : Track}
  {c : Cursor}

/-- An answer may follow on a step that succeeds. -/
theorem step {m : Scan β} {k : β → Scan α} {b : β} {x : Except ε α}
    (hm : m.outcome t = some (.ok b, t')) (h : Answers text refuses (k b) t' x) :
    Answers text refuses (m >>= k) t x := by
  obtain ⟨c, h⟩ := h
  exact ⟨c, Follows.step hm h⟩

/-- An answer may follow on a reader that is followed. -/
theorem bind {m : Scan β} {k : β → Scan α} {x : Except ε (β × Cursor)}
    {f : β × Cursor → Except ε α} (h : Follows text refuses m t x)
    (hk : ∀ b c' t', x = .ok (b, c') → StandsAt text t' c' →
      Answers text refuses (k b) t' (f (b, c'))) :
    Answers text refuses (m >>= k) t (x >>= f) := by
  cases x with
  | error e => exact ⟨⟨[], 0⟩, Follows.error h⟩
  | ok r =>
    obtain ⟨t', hm, hstands⟩ := h
    exact step hm (hk _ _ _ rfl hstands)

/-- What is given back after a scan of a whole text. -/
theorem thenPure {m : Scan β} {x : Except ε β} (h : Answers text refuses m t x) (a : α) :
    Answers text refuses (m >>= fun _ => pure a) t (x >>= fun _ => .ok a) := by
  obtain ⟨c, h⟩ := h
  refine ⟨c, ?_⟩
  cases x with
  | error e => exact Follows.error h
  | ok b =>
    obtain ⟨t', hm, hstands⟩ := h
    exact Follows.step hm (Follows.pure hstands a)

end Answers

/-- A fault in a reference is reported in words, with a boundary of the text if it has a column. -/
structure IsReferenceFault (text : String) (reason : String) (f : FormatError) : Prop where
  /-- It is reported with its reason. -/
  reported : f = .invalidSignature text reason
  /-- The column in the reason is a boundary. -/
  boundary : reason = "missing parameter list" ∨
    ∃ e : ScanError, reason = e.described ∧ IsBoundary text e.column

section Whole

variable {α : Type} {text : String} {t : Track} {c : Cursor}

/-- A reader is followed also where its faults are worded for a reference. -/
theorem Follows.within {m : Scan α} {x : Except ScanError (α × Cursor)}
    (h : Follows text (IsFault text) m t x) :
    Follows text (IsReferenceFault text) (Input.within text m) t
      (x.mapError ScanError.described) := by
  cases x with
  | error e =>
    obtain ⟨f, t', hm, ⟨rfl, hboundary⟩, hsound⟩ := h
    refine ⟨_, t', ?_, ⟨rfl, .inr ⟨e, rfl, hboundary⟩⟩, hsound⟩
    rw [outcome_within, hm]
    rfl
  | ok r =>
    obtain ⟨t', hm, hstands⟩ := h
    refine ⟨t', ?_, hstands⟩
    rw [outcome_within, hm]
    rfl

/-- So is an answer. -/
theorem Answers.within {m : Scan α} {x : Except ScanError α}
    (h : Answers text (IsFault text) m t x) :
    Answers text (IsReferenceFault text) (Input.within text m) t
      (x.mapError ScanError.described) := by
  obtain ⟨c, h⟩ := h
  refine ⟨c, ?_⟩
  have hwithin := h.within
  cases x <;> exact hwithin

/-- The end of the text is found alike. -/
theorem answers_finish (h : StandsAt text t c) :
    Answers text (IsFault text) (finish text) t c.finish := by
  obtain ⟨t', hskip, hstands⟩ := exists_outcome_skipBlanks h
  refine ⟨c.skipBlanks, ?_⟩
  unfold finish Cursor.finish
  refine Follows.step hskip (Follows.step (outcome_position t') ?_)
  rw [hstands.position, hstands.within.utf8ByteSize_eq]
  dsimp only
  by_cases hnil : c.skipBlanks.rest = []
  · have hend : (c.skipBlanks.after c.skipBlanks.rest []).column ≤ c.skipBlanks.column := by
      rw [hnil]
      exact Nat.le_refl _
    rw [if_pos hend, hnil]
    exact Follows.pure hstands ()
  · have hmore := (Cursor.Advances.after (List.append_nil _).symm hnil).column_lt
    rw [if_neg (Nat.not_le.2 hmore), if_neg (by simpa using hnil)]
    exact Follows.refuse hstands _

/-- The types in front of a name are read alike. -/
theorem follows_leadingTypes (h : StandsAt text t c) :
    Follows text (IsFault text) (leadingTypes text) t c.leadingTypes := by
  unfold leadingTypes Cursor.leadingTypes
  refine Follows.bind (follows_type h) fun first c₁ t₁ _ hstands => ?_
  obtain ⟨t₂, hskip, hstands⟩ := exists_outcome_skipBlanks hstands
  refine Follows.step hskip ?_
  dsimp only
  refine Follows.ifEatText hstands [':', ':'] rfl (fun c₂ t₃ heat hstands => ?_) fun heat => ?_
  · rw [heat]
    exact Follows.pure hstands _
  · rw [heat]
    refine Follows.bind (follows_type hstands) fun second c₂ t₃ _ hstands => ?_
    obtain ⟨t₄, hskip, hstands⟩ := exists_outcome_skipBlanks hstands
    refine Follows.step hskip ?_
    dsimp only
    refine Follows.ifEatText hstands [':', ':'] rfl (fun c₃ t₅ heat hstands => ?_) fun heat => ?_
    · rw [heat]
      exact Follows.pure hstands _
    · rw [heat]
      exact Follows.refuse hstands _

/-- So are the generic arguments of a method. -/
theorem follows_genericArgs (h : StandsAt text t c) :
    Follows text (IsFault text) (genericArgs text) t c.genericArgs := by
  unfold genericArgs Cursor.genericArgs
  refine Follows.ifPeek h '<' (fun hnext => ?_) fun hnext => ?_
  · obtain ⟨c', heat⟩ := Cursor.exists_eat?_of_head hnext
    rw [heat]
    exact follows_types heat h
  · rw [Cursor.eat?_of_head hnext]
    exact Follows.pure h []

/-- **The text of a type is answered alike.** -/
theorem answers_wholeType (text : String) :
    Answers text (IsFault text) (wholeType text) {} (TypeName.scan text) :=
  Answers.bind (follows_type (standsAt_start text)) fun ty _ _ _ hstands =>
    (answers_finish hstands).thenPure ty

/-- **So is that of a method reference.** -/
theorem answers_wholeMethodRef (text : String) :
    Answers text (IsReferenceFault text) (wholeMethodRef text) {} (MethodRef.scan text) := by
  unfold wholeMethodRef MethodRef.scan
  refine Answers.bind (follows_leadingTypes (standsAt_start text)).within
    fun leading c₁ t₁ _ hstands => ?_
  refine Answers.bind (follows_name hstands).within fun name c₂ t₂ _ hstands => ?_
  refine Answers.bind (follows_genericArgs hstands).within fun args c₃ t₃ _ hstands => ?_
  obtain ⟨t₄, hskip, hstands⟩ := exists_outcome_skipBlanks hstands
  refine Answers.step hskip (Answers.step (outcome_peek hstands) ?_)
  dsimp only
  by_cases hnext : c₃.skipBlanks.rest.head? = some '('
  · obtain ⟨c₄, heat⟩ := Cursor.exists_eat?_of_head hnext
    rw [if_neg (not_not_intro hnext), heat]
    refine Answers.bind (follows_types heat hstands).within fun parameters _ t₅ _ hstands => ?_
    exact (answers_finish hstands).within.thenPure _
  · rw [if_pos hnext, Cursor.eat?_of_head hnext]
    exact ⟨⟨[], 0⟩, _, t₄, rfl, ⟨rfl, .inl rfl⟩, hstands.sound⟩

/-- **So is that of a field reference.** -/
theorem answers_wholeFieldRef (text : String) :
    Answers text (IsReferenceFault text) (wholeFieldRef text) {}
      ((FieldRef.scan text).mapError ScanError.described) := by
  refine Answers.within ?_
  refine Answers.bind (follows_leadingTypes (standsAt_start text)) fun leading c₁ t₁ _ hstands => ?_
  refine Answers.bind (follows_name hstands) fun name c₂ t₂ _ hstands => ?_
  exact (answers_finish hstands).thenPure _

end Whole

/-- Whether an error names the text, and no column but a boundary of it. -/
def ReportsBoundary (text : String) : FormatError → Prop
  | .invalidTypeName text' column _ => text' = text ∧ IsBoundary text column
  | .invalidSignature text' reason => text' = text ∧ (reason = "missing parameter list" ∨
      ∃ column cause, reason = cause ++ " at column " ++ Nat.repr column ∧ IsBoundary text column)
  | _ => False

/-- A scan of a whole text that goes well and gives an answer. -/
structure Safe {α : Type} (text : String) (m : Scan α) (answer : Except FormatError α) : Prop where
  /-- The scan ends with the answer, after a sound track. -/
  ends : ∃ t, m.outcome {} = some (answer.mapError Halt.refused, t) ∧ t.Sound text
  /-- An error names boundaries only. -/
  reports : ∀ e, answer = .error e → ReportsBoundary text e

/-- A reader that answers as the parser does is safe. -/
theorem Answers.safe {ε α : Type} {text : String} {refuses : ε → FormatError → Prop} {m : Scan α}
    {x : Except ε α} (h : Answers text refuses m {} x) (report : ε → FormatError)
    (hreport : ∀ e f, refuses e f → f = report e ∧ ReportsBoundary text f) :
    Safe text m (x.mapError report) := by
  obtain ⟨c, h⟩ := h
  cases x with
  | error e =>
    obtain ⟨f, t, hm, hrefuses, hsound⟩ := h
    obtain ⟨rfl, hboundary⟩ := hreport e f hrefuses
    refine ⟨⟨t, hm, hsound⟩, fun e' he' => ?_⟩
    cases he'
    exact hboundary
  | ok a =>
    obtain ⟨t, hm, hstands⟩ := h
    exact ⟨⟨t, hm, hstands.sound⟩, nofun⟩

/-- The fault of a reference is one at a boundary of the text. -/
theorem reports_of_isReferenceFault {text reason : String} {f : FormatError}
    (h : IsReferenceFault text reason f) :
    f = .invalidSignature text reason ∧ ReportsBoundary text f := by
  obtain ⟨rfl, hboundary⟩ := h
  refine ⟨rfl, rfl, hboundary.imp_right ?_⟩
  rintro ⟨e, rfl, hcolumn⟩
  exact ⟨e.column, e.reason, rfl, hcolumn⟩

/-- The reader of types is safe. -/
theorem safe_wholeType (text : String) : Safe text (wholeType text) (TypeName.parse text) := by
  have hparse : TypeName.parse text =
      (TypeName.scan text).mapError fun e => .invalidTypeName text e.column e.reason := by
    unfold TypeName.parse
    cases TypeName.scan text <;> rfl
  rw [hparse]
  refine (answers_wholeType text).safe _ fun e f hfault => ?_
  obtain ⟨rfl, hboundary⟩ := hfault
  exact ⟨rfl, rfl, hboundary⟩

/-- So is that of method references. -/
theorem safe_wholeMethodRef (text : String) :
    Safe text (wholeMethodRef text) (MethodRef.parse text) :=
  (answers_wholeMethodRef text).safe _ fun _ _ => reports_of_isReferenceFault

/-- So is that of field references. -/
theorem safe_wholeFieldRef (text : String) :
    Safe text (wholeFieldRef text) (FieldRef.parse text) := by
  have hparse : FieldRef.parse text =
      ((FieldRef.scan text).mapError ScanError.described).mapError (.invalidSignature text) := by
    unfold FieldRef.parse
    cases FieldRef.scan text <;> rfl
  rw [hparse]
  exact (answers_wholeFieldRef text).safe _ fun _ _ => reports_of_isReferenceFault

/-- **The scanner's position stays valid and it always makes progress.** On every text the scans of
type names, method references and field references end, with the answer of the readers: no slice
lies off the boundaries of the text and no depth goes below zero. All positions on the way are
boundaries, none is below an earlier one, every call of a name, a segment, a type or a list that
succeeds ends behind where it began, and every column that is reported is a boundary. The readers
themselves go forward in the same manner from every cursor in the text. -/
theorem readers_safe (text : String) :
    Safe text (wholeType text) (TypeName.parse text) ∧
    Safe text (wholeMethodRef text) (MethodRef.parse text) ∧
    Safe text (wholeFieldRef text) (FieldRef.parse text) ∧
    Cursor.Forward text Cursor.name ∧ Cursor.Forward text Cursor.type ∧
    ∀ close, Cursor.Forward text (Cursor.types · close) := by
  refine ⟨safe_wholeType text, safe_wholeMethodRef text, safe_wholeFieldRef text, ?_, ?_, ?_⟩
  · exact Cursor.forward_of_advances (fun _ _ _ => Cursor.advances_of_name) text
  · exact Cursor.forward_of_advances (fun _ _ _ => Cursor.advances_of_type) text
  · exact fun _ => Cursor.forward_of_advances (fun _ _ _ => Cursor.advances_of_types) text

end Bytewise

end Hotswap
