import Hotswap.CoreLibrary
import Mathlib

/-!
# Templates

A template is made of pieces: characters, and holes, each a digit between braces. To fill it in is
to put a text in the place of each hole that has one (`filled`); what has been put in is not looked
at.

The method that formats text fills in one text after another and looks through the whole of what it
has so far. For one text that is the same. For two it is the same exactly if the second text is its
own hole, or the characters of the second hole stand nowhere but where the template has the hole
(`formatOn`): the first text can bring them along (`formatOn_hole`), or join them from characters of
the template.
-/

namespace Hotswap

/-! ## Pieces -/

/-- A piece of a template. -/
inductive Piece where
  /-- A character. -/
  | char (c : Char)
  /-- A digit between braces. -/
  | hole (digit : Char)
  deriving DecidableEq

/-- A digit between braces. -/
def braced (digit : Char) : List Char := ['\x7b', digit, '\x7d']

/-- The pieces of a template with holes for some digits. -/
def pieces (digits : List Char) : List Char → List Piece
  | [] => []
  | '\x7b' :: d :: '\x7d' :: rest =>
    if d ∈ digits then .hole d :: pieces digits rest
    else .char '\x7b' :: pieces digits (d :: '\x7d' :: rest)
  | c :: rest => .char c :: pieces digits rest
  termination_by structural cs => cs

namespace Piece

/-- The text of a piece. -/
def text : Piece → List Char
  | .char c => [c]
  | .hole digit => braced digit

/-- The text of a piece when some holes are filled in. -/
def fill (texts : List (Char × List Char)) : Piece → List Char
  | .char c => [c]
  | .hole digit => (texts.lookup digit).getD (braced digit)

/-- The pieces in the place of a piece when one hole is filled in. -/
def put (digit : Char) (text : List Char) : Piece → List Piece
  | .char c => [.char c]
  | .hole d => if d = digit then text.map .char else [.hole d]

end Piece

/-- The template with texts in the place of their holes. -/
def filled (texts : List (Char × List Char)) (template : List Char) : List Char :=
  (pieces (texts.map Prod.fst) template).flatMap (Piece.fill texts)

/-- The characters of a hole, none of which is part of a hole of the template. -/
def spelled (digit : Char) : List Piece := (braced digit).map .char

/-- The pieces of a template make up the template. -/
theorem flatMap_text_pieces (digits cs : List Char) :
    (pieces digits cs).flatMap Piece.text = cs := by
  fun_induction pieces digits cs with
  | case1 => rfl
  | case2 d rest _ ih => exact congrArg (braced d ++ ·) ih
  | case3 d rest _ ih => exact congrArg ('\x7b' :: ·) ih
  | case4 c rest _ ih => exact congrArg (c :: ·) ih

/-- The characters of a hole, one by one, have the text of the hole. -/
theorem flatMap_text_spelled (digit : Char) (ps : List Piece) :
    (spelled digit ++ ps).flatMap Piece.text = braced digit ++ ps.flatMap Piece.text := rfl

/-- A template that starts with the characters of a hole starts with the hole. -/
theorem pieces_hole {digits : List Char} {d : Char} (h : d ∈ digits) (rest : List Char) :
    pieces digits (braced d ++ rest) = .hole d :: pieces digits rest := by
  show pieces digits ('\x7b' :: d :: '\x7d' :: rest) = _
  rw [pieces, if_pos h]

/-- The pieces of a template do not start with the characters of a hole. -/
theorem not_spelled_prefix_pieces {digit : Char} {digits : List Char} (hdigit : digit ∈ digits)
    (cs : List Char) : ¬spelled digit <+: pieces digits cs := by
  rintro ⟨ps, hps⟩
  have hcs : cs = braced digit ++ ps.flatMap Piece.text := by
    rw [← flatMap_text_spelled, hps, flatMap_text_pieces]
  rw [hcs, pieces_hole hdigit] at hps
  exact absurd (List.cons.inj hps).1 nofun

/-- **A template has a hole wherever its characters stand.** -/
theorem not_spelled_infix_pieces {digit : Char} {digits : List Char} (hdigit : digit ∈ digits)
    (cs : List Char) : ¬spelled digit <:+: pieces digits cs := by
  have hcons (cs : List Char) {p : Piece} {ps : List Piece} (heq : pieces digits cs = p :: ps)
      (hrest : ¬spelled digit <:+: ps) : ¬spelled digit <:+: p :: ps := by
    intro hinfix
    rcases List.infix_cons_iff.1 hinfix with hprefix | hinfix
    · exact not_spelled_prefix_pieces hdigit cs (heq ▸ hprefix)
    · exact hrest hinfix
  fun_induction pieces digits cs with
  | case1 => exact fun h => nomatch List.infix_nil.1 h
  | case2 d rest hd ih => exact hcons _ (pieces_hole hd rest) ih
  | case3 d rest hd ih =>
    refine hcons ('\x7b' :: d :: '\x7d' :: rest) ?_ ih
    rw [pieces, if_neg hd]
  | case4 c rest hne ih =>
    refine hcons (c :: rest) ?_ ih
    rw [pieces]
    exact hne

/-! ## Going through pieces -/

section scanner

variable {piece replacement : List Char}

/-- Skipping the characters of a text leaves the rest of it. -/
theorem replaceFrom_length (xs ys : List Char) :
    Text.replaceFrom piece replacement xs.length (xs ++ ys) =
      Text.replaceFrom piece replacement 0 ys := by
  induction xs with
  | nil => rfl
  | cons x xs ih => exact ih

/-- Where the piece stands it is replaced. -/
theorem replaceFrom_append (hne : piece ≠ []) (rest : List Char) :
    Text.replaceFrom piece replacement 0 (piece ++ rest) =
      replacement ++ Text.replaceFrom piece replacement 0 rest := by
  obtain ⟨c, tail, rfl⟩ := List.exists_cons_of_ne_nil hne
  have hstarts : (c :: tail).isPrefixOf (c :: (tail ++ rest)) = true :=
    List.isPrefixOf_iff_prefix.2 (List.prefix_append (c :: tail) rest)
  rw [List.cons_append, Text.replaceFrom, if_pos hstarts]
  exact congrArg (replacement ++ ·) (replaceFrom_length tail rest)

/-- Where it does not stand a character stays. -/
theorem replaceFrom_cons {c : Char} {rest : List Char} (h : ¬piece <+: c :: rest) :
    Text.replaceFrom piece replacement 0 (c :: rest) =
      c :: Text.replaceFrom piece replacement 0 rest := by
  rw [Text.replaceFrom, if_neg fun hstarts => h (List.isPrefixOf_iff_prefix.1 hstarts)]

/-- A piece that is replaced by itself stays. -/
theorem replaceFrom_self (hne : piece ≠ []) (cs : List Char) :
    Text.replaceFrom piece piece 0 cs = cs := by
  induction hlength : cs.length using Nat.strong_induction_on generalizing cs with
  | _ n ih =>
    cases cs with
    | nil => rfl
    | cons c rest =>
      by_cases hstart : piece <+: c :: rest
      · obtain ⟨tail, htail⟩ := hstart
        rw [← htail] at hlength ⊢
        rw [replaceFrom_append hne]
        refine congrArg (piece ++ ·) (ih tail.length ?_ tail rfl)
        rw [← hlength, List.length_append]
        exact Nat.lt_add_of_pos_left (List.length_pos_of_ne_nil hne)
      · rw [replaceFrom_cons hstart]
        exact congrArg (c :: ·) (ih rest.length (by simp [← hlength]) rest rfl)

end scanner

variable {digit : Char} {text : List Char}

/-- A list of pieces as the scanner for a hole goes through it: it stops at the hole and at its
characters, and passes over every other piece. -/
inductive Scanned (digit : Char) : List Piece → Prop
  /-- The end. -/
  | nil : Scanned digit []
  /-- The hole. -/
  | hole {ps : List Piece} (h : Scanned digit ps) : Scanned digit (.hole digit :: ps)
  /-- The characters of the hole. -/
  | spelled {ps : List Piece} (h : Scanned digit ps) : Scanned digit (spelled digit ++ ps)
  /-- Any other piece. -/
  | pass {p : Piece} {ps : List Piece} (hp : p ≠ .hole digit)
      (hstart : ¬Hotswap.spelled digit <+: p :: ps) (h : Scanned digit ps) : Scanned digit (p :: ps)

/-- Every list of pieces is gone through in that way. -/
theorem scanned (digit : Char) (ps : List Piece) : Scanned digit ps := by
  induction hlength : ps.length using Nat.strong_induction_on generalizing ps with
  | _ n ih =>
    cases ps with
    | nil => exact .nil
    | cons p ps =>
      have hrest : Scanned digit ps := ih ps.length (by simp [← hlength]) ps rfl
      by_cases hp : p = .hole digit
      · rw [hp]
        exact .hole hrest
      · by_cases hstart : spelled digit <+: p :: ps
        · obtain ⟨qs, hqs⟩ := hstart
          rw [← hqs] at hlength ⊢
          refine .spelled (ih qs.length ?_ qs rfl)
          rw [← hlength, List.length_append]
          exact Nat.lt_add_of_pos_left (Nat.succ_pos 2)
        · exact .pass hp hstart hrest

/-- Where the characters of a hole stand and the pieces have no hole, they are characters. -/
theorem spelled_prefix_of_braced (hopen : digit ≠ '\x7b') {c : Char} {ps : List Piece}
    (h : braced digit <+: c :: ps.flatMap Piece.text) : spelled digit <+: .char c :: ps := by
  obtain ⟨rfl, hafter⟩ := List.cons_prefix_cons.1 h
  have hsecond : ∃ qs, ps = .char digit :: qs ∧ ['\x7d'] <+: qs.flatMap Piece.text := by
    cases ps with
    | nil => exact absurd (List.prefix_nil.1 hafter) (List.cons_ne_nil _ _)
    | cons p qs =>
      cases p with
      | char d =>
        obtain ⟨rfl, hrest⟩ := List.cons_prefix_cons.1 hafter
        exact ⟨qs, rfl, hrest⟩
      | hole e => exact absurd (List.cons_prefix_cons.1 hafter).1 hopen
  obtain ⟨qs, rfl, hlast⟩ := hsecond
  cases qs with
  | nil => exact absurd (List.prefix_nil.1 hlast) (List.cons_ne_nil _ _)
  | cons p qs =>
    cases p with
    | char d =>
      obtain ⟨rfl, -⟩ := List.cons_prefix_cons.1 hlast
      exact List.prefix_append (spelled digit) qs
    | hole e => exact absurd (List.cons_prefix_cons.1 hlast).1 (by decide)

/-- A piece that the scanner passes over stays as it is. -/
theorem replaceFrom_pass (hdigit : digit.isDigit = true) {p : Piece} {ps : List Piece}
    (hp : p ≠ .hole digit) (hstart : ¬spelled digit <+: p :: ps) :
    Text.replaceFrom (braced digit) text 0 (p.text ++ ps.flatMap Piece.text) =
      p.text ++ Text.replaceFrom (braced digit) text 0 (ps.flatMap Piece.text) := by
  have hopen : digit ≠ '\x7b' := by
    rintro rfl
    exact absurd hdigit (by decide)
  have hclose : digit ≠ '\x7d' := by
    rintro rfl
    exact absurd hdigit (by decide)
  cases p with
  | char c =>
    exact replaceFrom_cons fun hbraced => hstart (spelled_prefix_of_braced hopen hbraced)
  | hole e =>
    have hne : digit ≠ e := fun h => hp (congrArg Piece.hole h.symm)
    show Text.replaceFrom (braced digit) text 0
      ('\x7b' :: e :: '\x7d' :: ps.flatMap Piece.text) = _
    rw [replaceFrom_cons, replaceFrom_cons, replaceFrom_cons]
    · rfl
    · exact fun h => absurd (List.cons_prefix_cons.1 h).1 (by decide)
    · exact fun h => hclose (List.cons_prefix_cons.1 (List.cons_prefix_cons.1 h).2).1
    · exact fun h => hne (List.cons_prefix_cons.1 (List.cons_prefix_cons.1 h).2).1

/-! ## Filling in one hole -/

/-- Without texts nothing is filled in. -/
theorem fill_nil : Piece.fill [] = Piece.text := by
  funext p
  cases p <;> rfl

/-- The first text is that of its hole, and the others are those of the other pieces. -/
theorem fill_cons (digit : Char) (text : List Char) (texts : List (Char × List Char)) (p : Piece) :
    Piece.fill ((digit, text) :: texts) p =
      if p = .hole digit then text else Piece.fill texts p := by
  cases p with
  | char c =>
    rw [if_neg nofun]
    rfl
  | hole e =>
    show (List.lookup e ((digit, text) :: texts)).getD (braced e) = _
    rw [List.lookup_cons]
    by_cases he : e = digit
    · rw [if_pos (congrArg Piece.hole he), beq_iff_eq.2 he]
      rfl
    · rw [if_neg fun h => he (Piece.hole.inj h), beq_eq_false_iff_ne.2 he]
      rfl

/-- A hole takes in its text. -/
theorem fill_hole : Piece.fill [(digit, text)] (.hole digit) = text := by
  rw [fill_cons, if_pos rfl]

/-- Any other piece stays. -/
theorem fill_of_ne {p : Piece} (hp : p ≠ .hole digit) :
    Piece.fill [(digit, text)] p = p.text := by
  rw [fill_cons, if_neg hp, fill_nil]

/-- A replacement that is longer than the hole makes at least as much of a text as filling in makes
of its pieces, and a shorter one at most as much: it is put in more often. -/
theorem length_replaceFrom (hdigit : digit.isDigit = true) (text : List Char) (ps : List Piece) :
    (text.length ≤ 3 →
      (Text.replaceFrom (braced digit) text 0 (ps.flatMap Piece.text)).length ≤
        (ps.flatMap (Piece.fill [(digit, text)])).length) ∧
    (3 ≤ text.length →
      (ps.flatMap (Piece.fill [(digit, text)])).length ≤
        (Text.replaceFrom (braced digit) text 0 (ps.flatMap Piece.text)).length) := by
  have hne : braced digit ≠ [] := List.cons_ne_nil _ _
  induction scanned digit ps with
  | nil => exact ⟨fun _ => Nat.le_refl 0, fun _ => Nat.le_refl 0⟩
  | @hole ps _ ih =>
    rw [List.flatMap_cons, List.flatMap_cons, fill_hole]
    show (_ → (Text.replaceFrom _ _ 0 (braced digit ++ _)).length ≤ _) ∧
      (_ → _ ≤ (Text.replaceFrom _ _ 0 (braced digit ++ _)).length)
    rw [replaceFrom_append hne, List.length_append, List.length_append]
    omega
  | @spelled ps _ ih =>
    have hfill : (spelled digit ++ ps).flatMap (Piece.fill [(digit, text)]) =
        braced digit ++ ps.flatMap (Piece.fill [(digit, text)]) := rfl
    have hthree : (braced digit).length = 3 := rfl
    rw [flatMap_text_spelled, hfill, replaceFrom_append hne, List.length_append,
      List.length_append]
    omega
  | @pass p ps hp hstart _ ih =>
    rw [List.flatMap_cons, List.flatMap_cons, replaceFrom_pass hdigit hp hstart, fill_of_ne hp,
      List.length_append, List.length_append]
    omega

/-- Putting a piece in its own place changes nothing. -/
theorem flatMap_fill_braced (digit : Char) (ps : List Piece) :
    ps.flatMap (Piece.fill [(digit, braced digit)]) = ps.flatMap Piece.text := by
  congr 1
  funext p
  by_cases hp : p = .hole digit
  · rw [hp, fill_hole]
    rfl
  · exact fill_of_ne hp


/-- **A replacement fills in a hole** exactly if it puts the hole in its own place, or the
characters of the hole stand nowhere but in the hole. -/
theorem replaceFrom_eq_flatMap_iff (hdigit : digit.isDigit = true) (text : List Char)
    (ps : List Piece) :
    Text.replaceFrom (braced digit) text 0 (ps.flatMap Piece.text) =
        ps.flatMap (Piece.fill [(digit, text)]) ↔
      text = braced digit ∨ ¬spelled digit <:+: ps := by
  have hne : braced digit ≠ [] := List.cons_ne_nil _ _
  have hscanned := scanned digit ps
  induction hscanned with
  | nil => exact iff_of_true rfl (.inr fun h => nomatch List.infix_nil.1 h)
  | @hole ps _ ih =>
    have hinfix : spelled digit <:+: .hole digit :: ps ↔ spelled digit <:+: ps := by
      rw [List.infix_cons_iff, or_iff_right]
      exact fun h => nomatch (List.cons_prefix_cons.1 h).1
    rw [List.flatMap_cons, List.flatMap_cons, fill_hole, hinfix]
    show Text.replaceFrom _ _ 0 (braced digit ++ _) = _ ↔ _
    rw [replaceFrom_append hne, List.append_cancel_left_eq]
    exact ih
  | @spelled ps _ ih =>
    have hinfix : spelled digit <:+: spelled digit ++ ps :=
      (List.prefix_append _ ps).isInfix
    have hfill : (spelled digit ++ ps).flatMap (Piece.fill [(digit, text)]) =
        braced digit ++ ps.flatMap (Piece.fill [(digit, text)]) := rfl
    rw [flatMap_text_spelled, hfill, replaceFrom_append hne, or_iff_left (not_not_intro hinfix)]
    constructor
    · -- The replacement is put in once more than the hole is filled in, so it is as long as it.
      intro heq
      have hlength := congrArg List.length heq
      rw [List.length_append, List.length_append] at hlength
      have hthree : (braced digit).length = 3 := rfl
      obtain ⟨hshort, hlong⟩ := length_replaceFrom hdigit text ps
      exact List.append_inj_left heq (by omega)
    · rintro rfl
      rw [flatMap_fill_braced, replaceFrom_self hne]
  | @pass p ps hp hstart _ ih =>
    have hinfix : spelled digit <:+: p :: ps ↔ spelled digit <:+: ps := by
      rw [List.infix_cons_iff, or_iff_right hstart]
    rw [List.flatMap_cons, List.flatMap_cons, replaceFrom_pass hdigit hp hstart, fill_of_ne hp,
      List.append_cancel_left_eq, hinfix]
    exact ih

/-! ## Filling in one hole after another -/

/-- A text in the place of a hole of a template fills the hole in. -/
theorem replaceFrom_template {digits : List Char} (hmem : digit ∈ digits)
    (hdigit : digit.isDigit = true) (text template : List Char) :
    Text.replaceFrom (braced digit) text 0 template =
      (pieces digits template).flatMap (Piece.fill [(digit, text)]) := by
  have hfill := (replaceFrom_eq_flatMap_iff hdigit text (pieces digits template)).2
    (.inr (not_spelled_infix_pieces hmem template))
  rwa [flatMap_text_pieces] at hfill

/-- Characters that are no part of a hole stay. -/
theorem flatMap_map_char (texts : List (Char × List Char)) (cs : List Char) :
    (cs.map Piece.char).flatMap (Piece.fill texts) = cs := by
  induction cs with
  | nil => rfl
  | cons c cs ih => exact congrArg (c :: ·) ih

/-- Filling in one hole and then others is filling them all in. -/
theorem flatMap_fill_put (digit : Char) (text : List Char) (texts : List (Char × List Char))
    (ps : List Piece) :
    (ps.flatMap (Piece.put digit text)).flatMap (Piece.fill texts) =
      ps.flatMap (Piece.fill ((digit, text) :: texts)) := by
  rw [List.flatMap_assoc]
  congr 1
  funext p
  rw [fill_cons]
  cases p with
  | char c =>
    rw [if_neg nofun]
    rfl
  | hole e =>
    show (if e = digit then text.map Piece.char else [.hole e]).flatMap (Piece.fill texts) = _
    by_cases he : e = digit
    · rw [if_pos he, if_pos (congrArg Piece.hole he), flatMap_map_char]
    · rw [if_neg he, if_neg fun h => he (Piece.hole.inj h), List.flatMap_singleton]

/-! ## The method -/

/-- What is made of a template with one value and then another. -/
theorem fillTemplate_two (template : String) (v w : Value) :
    CoreLibrary.fillTemplate template [v, w] =
      String.ofList (Text.replaceFrom (braced '1') w.render.toList 0
        (Text.replaceFrom (braced '0') v.render.toList 0 template.toList)) := by
  show Text.replaceAll _ _ (Text.replaceAll _ _ _) = _
  unfold Text.replaceAll
  rw [String.toList_ofList]
  rfl

/-- The method fills in its first argument with the others. -/
theorem format_apply {c : HostCall} {template : String} {vs : List Value}
    (h : c.args = .string template :: vs) :
    CoreLibrary.format c = .done (.string (CoreLibrary.fillTemplate template vs)) := by
  have harg : c.argAs .string 0 = .ok (.string template) := by
    unfold HostCall.argAs HostCall.arg
    rw [h]
    rfl
  unfold CoreLibrary.format
  rw [harg, h]
  rfl

/-- What the method makes of a template with one value and with two. -/
structure FormatOn (c : HostCall) (template : String) : Prop where
  /-- With one value the template is filled in. -/
  one {v : Value} (hargs : c.args = [.string template, v]) :
    CoreLibrary.format c =
      .done (.string (String.ofList (filled [('0', v.render.toList)] template.toList)))
  /-- With two the second text is put wherever its hole stands in what the first one makes. -/
  two {v w : Value} (hargs : c.args = [.string template, v, w]) :
    CoreLibrary.format c =
      .done (.string (String.ofList (Text.replaceFrom (braced '1') w.render.toList 0
        (filled [('0', v.render.toList)] template.toList))))
  /-- That fills the template in exactly if the second text is its own hole, or the characters of
  that hole stand nowhere but where the template has it. -/
  fills_iff {v w : Value} (hargs : c.args = [.string template, v, w]) :
    CoreLibrary.format c =
        .done (.string (String.ofList
          (filled [('0', v.render.toList), ('1', w.render.toList)] template.toList))) ↔
      w.render.toList = braced '1' ∨
        ¬spelled '1' <:+:
          (pieces ['0', '1'] template.toList).flatMap (Piece.put '0' v.render.toList)

/-- **Formatting** fills in a template with one value. With two it goes through the text of the
first one too. -/
theorem formatOn (c : HostCall) (template : String) : FormatOn c template := by
  have honce (text : List Char) :
      Text.replaceFrom (braced '0') text 0 template.toList =
        filled [('0', text)] template.toList :=
    replaceFrom_template (List.mem_singleton_self '0') (by decide) text template.toList
  constructor
  case one =>
    intro v hargs
    rw [format_apply hargs, ← honce]
    rfl
  case two =>
    intro v w hargs
    rw [format_apply hargs, fillTemplate_two, honce]
  case fills_iff =>
    intro v w hargs
    -- What the first text makes, with the holes of the second one kept apart from its characters.
    let ps := (pieces ['0', '1'] template.toList).flatMap (Piece.put '0' v.render.toList)
    have hfirst : Text.replaceFrom (braced '0') v.render.toList 0 template.toList =
        ps.flatMap Piece.text := by
      rw [← fill_nil, flatMap_fill_put]
      exact replaceFrom_template List.mem_cons_self (by decide) _ _
    have hboth : filled [('0', v.render.toList), ('1', w.render.toList)] template.toList =
        ps.flatMap (Piece.fill [('1', w.render.toList)]) := by
      rw [flatMap_fill_put]
      rfl
    rw [format_apply hargs, fillTemplate_two, hfirst, hboth,
      ← replaceFrom_eq_flatMap_iff (by decide)]
    refine ⟨fun h => ?_, fun h => by rw [h]⟩
    injection h with h
    injection h with h
    exact String.ofList_injective h

/-- A call of the method with a template that is its first hole and with the second hole for the
first text. -/
def holeCall : HostCall where
  signature := ⟨.plain "System.String", "Format", [],
    [.plain "System.String", .plain "System.Object", .plain "System.Object"]⟩
  context := {}
  receiver := .null
  args := [.string "\x7b0\x7d", .string "\x7b1\x7d", .string "x"]

/-- The first text is the second hole and takes the second text in. -/
theorem formatOn_hole :
    CoreLibrary.format holeCall = .done (.string "x") ∧
    String.ofList (filled [('0', "\x7b1\x7d".toList), ('1', "x".toList)] "\x7b0\x7d".toList) =
      "\x7b1\x7d" ∧
    spelled '1' <:+:
      (pieces ['0', '1'] "\x7b0\x7d".toList).flatMap (Piece.put '0' "\x7b1\x7d".toList) := by
  have hon : FormatOn holeCall "\x7b0\x7d" := formatOn holeCall "\x7b0\x7d"
  have hargs : holeCall.args = [.string "\x7b0\x7d", .string "\x7b1\x7d", .string "x"] := rfl
  have hspelled : spelled '1' <:+:
      (pieces ['0', '1'] "\x7b0\x7d".toList).flatMap (Piece.put '0' "\x7b1\x7d".toList) := by
    decide +kernel
  have htext : String.ofList (Text.replaceFrom (braced '1') (Value.string "x").render.toList 0
      (filled [('0', (Value.string "\x7b1\x7d").render.toList)] "\x7b0\x7d".toList)) = "x" := by
    decide +kernel
  refine ⟨?_, by decide +kernel, hspelled⟩
  rw [hon.two hargs, htext]

end Hotswap
