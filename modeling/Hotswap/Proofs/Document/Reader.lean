import Hotswap.Document.Decoder
import Hotswap.Proofs.Document.Number
import Hotswap.Proofs.Document.Text

/-!
# Reading what is written

A document that is written with a line per item is read as that document (`read_pretty`). This
holds of documents that are whole and whose strings and numbers are as they are written, which is
`IsWritten`; every document that this library makes of its own data is one.

The induction is on the document. Blanks in front of a value are skipped, so the statements are
about any text that is the text of a value after its blanks.
-/

namespace Hotswap.Document

/-! ## Written documents -/

/-- What stands between the quotes of a string. -/
structure IsRaw (raw : String) : Prop where
  /-- The reader finds the closing quote. -/
  taken : ∀ rest, takeString (raw.toList ++ '"' :: rest) = some (raw.toList, rest)
  /-- Every byte is part of a character. -/
  strayByte_not_mem : Text.strayByte ∉ raw.toList

/-- An encoded text may stand between quotes. -/
theorem isRaw_encode (s : String) : IsRaw (String.ofList (encodeText s.toList)) where
  taken rest := by
    rw [String.toList_ofList]
    exact takeString_encodeText s.toList rest
  strayByte_not_mem := by
    rw [String.toList_ofList]
    exact strayByte_not_mem_encodeText s.toList

mutual

/-- A whole document with strings and numbers as they are written. -/
def IsWritten : Document → Prop
  | .null | .bool _ => True
  | .number numeral => IsNumeral numeral
  | .string raw => IsRaw raw
  | .array items => AreWritten items
  | .object members => MembersWritten members
  | .cut => False

/-- Whole documents with strings and numbers as they are written. -/
def AreWritten : List Document → Prop
  | [] => True
  | d :: rest => d.IsWritten ∧ AreWritten rest

/-- Members with strings and numbers as they are written. -/
def MembersWritten : List (String × Document) → Prop
  | [] => True
  | (name, d) :: rest => IsRaw name ∧ d.IsWritten ∧ MembersWritten rest

end

/-- Items can be written if each of them can. -/
theorem areWritten_iff {items : List Document} : AreWritten items ↔ ∀ d ∈ items, d.IsWritten := by
  induction items with
  | nil => simp [AreWritten]
  | cons d rest ih => simp [AreWritten, ih]

/-- Members can be written if each of them can, and its name may stand between quotes. -/
theorem membersWritten_iff {members : List (String × Document)} :
    MembersWritten members ↔ ∀ m ∈ members, IsRaw m.1 ∧ m.2.IsWritten := by
  induction members with
  | nil => simp [MembersWritten]
  | cons m rest ih => simp [MembersWritten, ih, and_assoc]

/-- A string can be written. -/
theorem isWritten_ofString (s : String) : (ofString s).IsWritten := isRaw_encode s

/-- So can a natural number. -/
theorem isWritten_ofNat (n : Nat) : (ofNat n).IsWritten := isNumeral_repr n

/-- So can an integer. -/
theorem isWritten_ofInt (n : Int) : (ofInt n).IsWritten := by
  unfold ofInt
  split
  · exact isNumeral_neg_repr _
  · exact isNumeral_repr _

/-- So can an object, if what it holds can. -/
theorem isWritten_ofMembers {members : List (String × Document)}
    (h : ∀ m ∈ members, m.2.IsWritten) : (ofMembers members).IsWritten := by
  refine membersWritten_iff.2 fun m hm => ?_
  obtain ⟨m', hm', rfl⟩ := List.mem_map.1 hm
  exact ⟨isRaw_encode m'.1, h m' hm'⟩

/-! ## Blanks -/

/-- Where there is no space none is skipped. -/
theorem skipSpace_of_headNot {cs : List Char} (h : HeadNot isSpace cs) : skipSpace cs = cs := by
  have hnone : ∀ c ∈ ([] : List Char), isSpace c = true := fun _ hc => nomatch hc
  exact dropWhile_append_of_headNot hnone h

/-- A line end and the indent after it are skipped. -/
theorem skipSpace_newline (level : Nat) {cs : List Char} (h : HeadNot isSpace cs) :
    skipSpace ((newline level).toList ++ cs) = cs := by
  refine dropWhile_append_of_headNot (fun c hc => ?_) h
  rw [newline, String.toList_ofList, List.mem_cons] at hc
  rcases hc with rfl | hc
  · rfl
  · rw [List.eq_of_mem_replicate hc]
    rfl

/-- A blank is skipped. -/
theorem skipSpace_blank {cs : List Char} (h : HeadNot isSpace cs) : skipSpace (' ' :: cs) = cs :=
  skipSpace_of_headNot h

/-- A numeral ends at the end of a line. -/
theorem endsNumeral_newline (level : Nat) (cs : List Char) :
    EndsNumeral ((newline level).toList ++ cs) := by
  rw [newline, String.toList_ofList]
  exact headNot_cons (by decide)

/-! ## Characters -/

-- Each equation of the printer is stated once, as the characters it writes.

/-- The characters of `null`. -/
theorem toList_prettyAt_null (level : Nat) :
    (prettyAt level .null).toList = ['n', 'u', 'l', 'l'] := by
  show "null".toList = _
  simp

/-- The characters of `true`. -/
theorem toList_prettyAt_true (level : Nat) :
    (prettyAt level (.bool true)).toList = ['t', 'r', 'u', 'e'] := by
  show "true".toList = _
  simp

/-- The characters of `false`. -/
theorem toList_prettyAt_false (level : Nat) :
    (prettyAt level (.bool false)).toList = ['f', 'a', 'l', 's', 'e'] := by
  show "false".toList = _
  simp

/-- A number is written as its numeral. -/
theorem prettyAt_number (level : Nat) (numeral : String) :
    prettyAt level (.number numeral) = numeral := rfl

/-- A string is written between quotes. -/
theorem toList_prettyAt_string (level : Nat) (raw : String) :
    (prettyAt level (.string raw)).toList = '"' :: (raw.toList ++ ['"']) := by
  show ("\"" ++ raw ++ "\"").toList = _
  simp

/-- The characters of an empty array. -/
theorem toList_prettyAt_array_nil (level : Nat) :
    (prettyAt level (.array [])).toList = ['[', ']'] := by
  show "[]".toList = _
  simp

/-- Those of an array with items, each on a line of its own. -/
theorem toList_prettyAt_array (level : Nat) (d : Document) (items : List Document) :
    (prettyAt level (.array (d :: items))).toList =
      '[' :: ((newline (level + 1)).toList ++ ((d.prettyAt (level + 1)).toList ++
        ((prettyItems (level + 1) items).toList ++ ((newline level).toList ++ [']'])))) := by
  show ("[" ++ newline (level + 1) ++ d.prettyAt (level + 1) ++ prettyItems (level + 1) items ++
    newline level ++ "]").toList = _
  simp

/-- The characters of an empty object. -/
theorem toList_prettyAt_object_nil (level : Nat) :
    (prettyAt level (.object [])).toList = ['\x7b', '\x7d'] := by
  show "\x7b\x7d".toList = _
  simp

/-- Those of an object with members, each on a line of its own. -/
theorem toList_prettyAt_object (level : Nat) (name : String) (d : Document)
    (members : List (String × Document)) :
    (prettyAt level (.object ((name, d) :: members))).toList =
      '\x7b' :: ((newline (level + 1)).toList ++ '"' :: (name.toList ++ '"' :: ':' :: ' ' ::
        ((d.prettyAt (level + 1)).toList ++ ((prettyMembers (level + 1) members).toList ++
          ((newline level).toList ++ ['\x7d']))))) := by
  show ("\x7b" ++ newline (level + 1) ++ ("\"" ++ name ++ "\"") ++ ": " ++
    d.prettyAt (level + 1) ++ prettyMembers (level + 1) members ++ newline level ++
      "\x7d").toList = _
  simp

/-- Nothing is written where no items are left. -/
theorem toList_prettyItems_nil (level : Nat) : (prettyItems level []).toList = [] := by
  show "".toList = _
  simp

/-- Another item follows after a comma. -/
theorem toList_prettyItems_cons (level : Nat) (d : Document) (items : List Document) :
    (prettyItems level (d :: items)).toList =
      ',' :: ((newline level).toList ++ ((d.prettyAt level).toList ++
        (prettyItems level items).toList)) := by
  show ("," ++ newline level ++ d.prettyAt level ++ prettyItems level items).toList = _
  simp

/-- Nothing is written where no members are left. -/
theorem toList_prettyMembers_nil (level : Nat) : (prettyMembers level []).toList = [] := by
  show "".toList = _
  simp

/-- Another member follows after a comma. -/
theorem toList_prettyMembers_cons (level : Nat) (name : String) (d : Document)
    (members : List (String × Document)) :
    (prettyMembers level ((name, d) :: members)).toList =
      ',' :: ((newline level).toList ++ '"' :: (name.toList ++ '"' :: ':' :: ' ' ::
        ((d.prettyAt level).toList ++ (prettyMembers level members).toList))) := by
  show ("," ++ newline level ++ ("\"" ++ name ++ "\"") ++ ": " ++ d.prettyAt level ++
    prettyMembers level members).toList = _
  simp

/-- Whether a value can start with a character. -/
def startsValue (c : Char) : Bool := !isSpace c && c != ']' && c != '\x7d'

/-- A value starts neither with a blank nor with a closing bracket. -/
theorem head_prettyAt (level : Nat) {d : Document} (h : d.IsWritten) :
    ∃ c cs, (d.prettyAt level).toList = c :: cs ∧ startsValue c = true := by
  cases d with
  | null => exact ⟨'n', _, toList_prettyAt_null level, rfl⟩
  | bool b =>
    cases b with
    | true => exact ⟨'t', _, toList_prettyAt_true level, rfl⟩
    | false => exact ⟨'f', _, toList_prettyAt_false level, rfl⟩
  | number numeral =>
    obtain ⟨c, cs, hcs, hc⟩ := NumeralChars.head h
    refine ⟨c, cs, by rw [prettyAt_number, hcs], ?_⟩
    rcases hc with rfl | hc
    · rfl
    · obtain ⟨hlow, hhigh⟩ := Decimal.toNat_of_isDigit hc
      have hne : ∀ d : Char, d.toNat < 48 ∨ 57 < d.toNat → c ≠ d := by
        rintro d hd rfl
        omega
      simp [startsValue, isSpace, hne]
  | string raw => exact ⟨'"', _, toList_prettyAt_string level raw, rfl⟩
  | array items =>
    cases items with
    | nil => exact ⟨'[', _, toList_prettyAt_array_nil level, rfl⟩
    | cons d rest => exact ⟨'[', _, toList_prettyAt_array level d rest, rfl⟩
  | object members =>
    cases members with
    | nil => exact ⟨'\x7b', _, toList_prettyAt_object_nil level, rfl⟩
    | cons m rest => exact ⟨'\x7b', _, toList_prettyAt_object level m.1 m.2 rest, rfl⟩
  | cut => cases h

/-- A written document does not begin with a space. -/
theorem headNot_isSpace_prettyAt (level : Nat) {d : Document} (h : d.IsWritten)
    (rest : List Char) : HeadNot isSpace ((d.prettyAt level).toList ++ rest) := by
  obtain ⟨c, cs, hcs, hc⟩ := head_prettyAt level h
  simp only [startsValue, Bool.and_eq_true, Bool.not_eq_true'] at hc
  rw [hcs]
  exact headNot_cons hc.1.1

/-! ## By the first character -/

section first

variable {fuel : Nat} {cs rest : List Char}

/-- One step of the reader, with the opening characters told apart. -/
theorem readValue_succ : readValue (fuel + 1) cs =
    match skipSpace cs with
    | [] => (.cut, none)
    | '[' :: rest =>
      match skipSpace rest with
      | ']' :: rest => (.array [], some rest)
      | rest => (.array (readItems fuel rest).1, (readItems fuel rest).2)
    | '\x7b' :: rest =>
      match skipSpace rest with
      | '\x7d' :: rest => (.object [], some rest)
      | rest => (.object (readMembers fuel rest).1, (readMembers fuel rest).2)
    | '"' :: rest =>
      match takeString rest with
      | some (raw, rest) => (.string (String.ofList raw), some rest)
      | none => (.cut, none)
    | c :: rest =>
      if c = 'n' then readLiteral ['u', 'l', 'l'] .null rest
      else if c = 't' then readLiteral ['r', 'u', 'e'] (.bool true) rest
      else if c = 'f' then readLiteral ['a', 'l', 's', 'e'] (.bool false) rest
      else
        match takeNumeral (c :: rest) with
        | some (numeral, rest) => (.number (String.ofList numeral), some rest)
        | none => (.cut, none) := rfl

/-- After a quote a string is read. -/
theorem readValue_string (h : skipSpace cs = '"' :: rest) :
    readValue (fuel + 1) cs = match takeString rest with
      | some (raw, rest) => (.string (String.ofList raw), some rest)
      | none => (.cut, none) := by
  rw [readValue_succ, h]
  rfl

/-- After a sign or a digit a number is read. -/
theorem readValue_number {c : Char} (h : skipSpace cs = c :: rest)
    (hc : c = '-' ∨ c.isDigit = true) :
    readValue (fuel + 1) cs = match takeNumeral (c :: rest) with
      | some (numeral, rest) => (.number (String.ofList numeral), some rest)
      | none => (.cut, none) := by
  have hne : ∀ d : Char, (d ≠ '-' ∧ d.isDigit = false) → c ≠ d := by
    rintro d ⟨hminus, hdigit⟩ rfl
    rcases hc with hc | hc
    · exact hminus hc
    · rw [hdigit] at hc
      cases hc
  rw [readValue_succ, h]
  split
  · rename_i heq
    cases heq
  · rename_i heq
    cases heq
    exact absurd rfl (hne '[' (by decide))
  · rename_i heq
    cases heq
    exact absurd rfl (hne '\x7b' (by decide))
  · rename_i heq
    cases heq
    exact absurd rfl (hne '"' (by decide))
  · rename_i heq
    cases heq
    rw [if_neg (hne 'n' (by decide)), if_neg (hne 't' (by decide)), if_neg (hne 'f' (by decide))]

/-- An array is empty when its bracket closes at once. -/
theorem readValue_bracket (h : skipSpace cs = '[' :: rest) :
    readValue (fuel + 1) cs = match skipSpace rest with
      | ']' :: rest => (.array [], some rest)
      | rest => (.array (readItems fuel rest).1, (readItems fuel rest).2) := by
  rw [readValue_succ, h]
  rfl

/-- An array may be closed at once. -/
theorem readValue_array_nil {after : List Char} (h : skipSpace cs = '[' :: rest)
    (hrest : skipSpace rest = ']' :: after) :
    readValue (fuel + 1) cs = (.array [], some after) := by
  rw [readValue_bracket h, hrest]
  rfl

/-- Otherwise its items are read. -/
theorem readValue_array {text : List Char} (h : skipSpace cs = '[' :: rest)
    (hrest : skipSpace rest = text) (hfirst : text.head? ≠ some ']') :
    readValue (fuel + 1) cs = (.array (readItems fuel text).1, (readItems fuel text).2) := by
  rw [readValue_bracket h, hrest]
  split
  · exact absurd rfl hfirst
  · rfl

/-- An object is empty when its bracket closes at once. -/
theorem readValue_brace (h : skipSpace cs = '\x7b' :: rest) :
    readValue (fuel + 1) cs = match skipSpace rest with
      | '\x7d' :: rest => (.object [], some rest)
      | rest => (.object (readMembers fuel rest).1, (readMembers fuel rest).2) := by
  rw [readValue_succ, h]
  rfl

/-- An object may be closed at once. -/
theorem readValue_object_nil {after : List Char} (h : skipSpace cs = '\x7b' :: rest)
    (hrest : skipSpace rest = '\x7d' :: after) :
    readValue (fuel + 1) cs = (.object [], some after) := by
  rw [readValue_brace h, hrest]
  rfl

/-- Otherwise its members are read. -/
theorem readValue_object {text : List Char} (h : skipSpace cs = '\x7b' :: rest)
    (hrest : skipSpace rest = text) (hfirst : text.head? ≠ some '\x7d') :
    readValue (fuel + 1) cs = (.object (readMembers fuel text).1, (readMembers fuel text).2) := by
  rw [readValue_brace h, hrest]
  split
  · exact absurd rfl hfirst
  · rfl

end first

/-! ## Values -/

/-- The text of a document is read as the document, after any blanks and before anything that does
not go on with a numeral. -/
def ReadsValue (d : Document) : Prop :=
  ∀ (fuel level : Nat) (cs rest : List Char), 2 * (d.prettyAt level).toList.length ≤ fuel →
    skipSpace cs = (d.prettyAt level).toList ++ rest → EndsNumeral rest →
    readValue fuel cs = (d, some rest)

/-- The items of an array are read, up to its closing bracket. -/
def ReadsItems (d : Document) (items : List Document) : Prop :=
  ∀ (fuel level outer : Nat) (cs rest : List Char),
    2 * ((d.prettyAt level).toList.length + (prettyItems level items).toList.length) < fuel →
    skipSpace cs = (d.prettyAt level).toList ++ ((prettyItems level items).toList ++
      ((newline outer).toList ++ ']' :: rest)) →
    readItems fuel cs = (d :: items, some rest)

/-- The members of an object are read, up to its closing bracket. -/
def ReadsMembers (name : String) (d : Document) (members : List (String × Document)) : Prop :=
  ∀ (fuel level outer : Nat) (cs rest : List Char),
    2 * ((d.prettyAt level).toList.length + (prettyMembers level members).toList.length) < fuel →
    skipSpace cs = '"' :: (name.toList ++ '"' :: ':' :: ' ' :: ((d.prettyAt level).toList ++
      ((prettyMembers level members).toList ++ ((newline outer).toList ++ '\x7d' :: rest)))) →
    readMembers fuel cs = ((name, d) :: members, some rest)

/-! ### Leaves -/

/-- `null` is read back. -/
theorem readsValue_null : ReadsValue .null := by
  intro fuel level cs rest hfuel hcs _
  rw [toList_prettyAt_null] at hfuel hcs
  obtain ⟨fuel, rfl⟩ : ∃ n, fuel = n + 1 := ⟨fuel - 1, by simp at hfuel; omega⟩
  rw [readValue_succ, hcs]
  rfl

/-- So are the truth values. -/
theorem readsValue_bool (b : Bool) : ReadsValue (.bool b) := by
  intro fuel level cs rest hfuel hcs _
  cases b with
  | true =>
    rw [toList_prettyAt_true] at hfuel hcs
    obtain ⟨fuel, rfl⟩ : ∃ n, fuel = n + 1 := ⟨fuel - 1, by simp at hfuel; omega⟩
    rw [readValue_succ, hcs]
    rfl
  | false =>
    rw [toList_prettyAt_false] at hfuel hcs
    obtain ⟨fuel, rfl⟩ : ∃ n, fuel = n + 1 := ⟨fuel - 1, by simp at hfuel; omega⟩
    rw [readValue_succ, hcs]
    rfl

/-- So is a string. -/
theorem readsValue_string {raw : String} (h : IsRaw raw) : ReadsValue (.string raw) := by
  intro fuel level cs rest hfuel hcs _
  rw [toList_prettyAt_string] at hfuel hcs
  obtain ⟨fuel, rfl⟩ : ∃ n, fuel = n + 1 := ⟨fuel - 1, by simp at hfuel; omega⟩
  rw [List.cons_append, List.append_assoc] at hcs
  have htaken : takeString (raw.toList ++ (['"'] ++ rest)) = some (raw.toList, rest) :=
    h.taken rest
  rw [readValue_string hcs, htaken]
  simp

/-- So is a number. -/
theorem readsValue_number {numeral : String} (h : IsNumeral numeral) :
    ReadsValue (.number numeral) := by
  intro fuel level cs rest hfuel hcs hrest
  rw [prettyAt_number] at hfuel hcs
  obtain ⟨c, tail, htail, hc⟩ := NumeralChars.head h
  obtain ⟨fuel, rfl⟩ : ∃ n, fuel = n + 1 := by
    rw [htail, List.length_cons] at hfuel
    exact ⟨fuel - 1, by omega⟩
  have htaken := NumeralChars.taken h hrest
  rw [htail, List.cons_append] at hcs htaken
  rw [readValue_number hcs hc, htaken, ← htail]
  simp

/-! ### Arrays -/

/-- So is an empty array. -/
theorem readsValue_array_nil : ReadsValue (.array []) := by
  intro fuel level cs rest hfuel hcs _
  rw [toList_prettyAt_array_nil] at hfuel hcs
  obtain ⟨fuel, rfl⟩ : ∃ n, fuel = n + 1 := ⟨fuel - 1, by simp at hfuel; omega⟩
  exact readValue_array_nil hcs rfl

/-- The last item is read back if it is as a document. -/
theorem readsItems_nil {d : Document} (h : ReadsValue d) : ReadsItems d [] := by
  intro fuel level outer cs rest hfuel hcs
  obtain ⟨fuel, rfl⟩ : ∃ n, fuel = n + 1 := ⟨fuel - 1, by omega⟩
  have hvalue := h fuel level cs ((newline outer).toList ++ ']' :: rest) (by omega) hcs
    (endsNumeral_newline outer _)
  rw [readItems, hvalue]
  dsimp only
  rw [skipSpace_newline outer (headNot_cons (by decide))]
  rfl

/-- An item is read back with those after it. -/
theorem readsItems_cons {d e : Document} {items : List Document} (hd : ReadsValue d)
    (he : e.IsWritten) (h : ReadsItems e items) : ReadsItems d (e :: items) := by
  intro fuel level outer cs rest hfuel hcs
  rw [toList_prettyItems_cons] at hfuel hcs
  simp only [List.length_cons, List.length_append] at hfuel
  simp only [List.cons_append, List.append_assoc] at hcs
  obtain ⟨fuel, rfl⟩ : ∃ n, fuel = n + 1 := ⟨fuel - 1, by omega⟩
  have hvalue := hd fuel level cs _ (by omega) hcs (headNot_cons (by decide))
  have hitems := h fuel level outer _ rest (by omega)
    (skipSpace_newline level (headNot_isSpace_prettyAt level he _))
  rw [readItems, hvalue]
  dsimp only
  rw [skipSpace_of_headNot (headNot_cons (by decide))]
  show (d :: (readItems fuel _).1, (readItems fuel _).2) = _
  rw [hitems]

/-- So are all items, if each is read back on its own. -/
theorem readsItems {d : Document} {items : List Document}
    (h : ∀ e ∈ d :: items, e.IsWritten ∧ ReadsValue e) : ReadsItems d items := by
  induction items generalizing d with
  | nil => exact readsItems_nil (h d List.mem_cons_self).2
  | cons e rest ih =>
    have hrest : ∀ e' ∈ e :: rest, e'.IsWritten ∧ ReadsValue e' :=
      fun e' he' => h e' (List.mem_cons_of_mem d he')
    exact readsItems_cons (h d List.mem_cons_self).2 (hrest e List.mem_cons_self).1 (ih hrest)

/-- An array is read back if its items are. -/
theorem readsValue_array {d : Document} {items : List Document} (hd : d.IsWritten)
    (h : ReadsItems d items) : ReadsValue (.array (d :: items)) := by
  intro fuel level cs rest hfuel hcs _
  rw [toList_prettyAt_array] at hfuel hcs
  simp only [List.length_cons, List.length_append] at hfuel
  simp only [List.cons_append, List.append_assoc, List.nil_append] at hcs
  obtain ⟨fuel, rfl⟩ : ∃ n, fuel = n + 1 := ⟨fuel - 1, by omega⟩
  have hspace := headNot_isSpace_prettyAt (level + 1) hd
    ((prettyItems (level + 1) items).toList ++ ((newline level).toList ++ ']' :: rest))
  have hitems := h fuel (level + 1) level _ rest (by omega) (skipSpace_of_headNot hspace)
  have hfirst : ((d.prettyAt (level + 1)).toList ++ ((prettyItems (level + 1) items).toList ++
      ((newline level).toList ++ ']' :: rest))).head? ≠ some ']' := by
    obtain ⟨c, tail, htail, hc⟩ := head_prettyAt (level + 1) hd
    rw [htail]
    intro hhead
    cases hhead
    exact absurd hc (by decide)
  rw [readValue_array hcs (skipSpace_newline (level + 1) hspace) hfirst, hitems]

/-! ### Objects -/

/-- So is an empty object. -/
theorem readsValue_object_nil : ReadsValue (.object []) := by
  intro fuel level cs rest hfuel hcs _
  rw [toList_prettyAt_object_nil] at hfuel hcs
  obtain ⟨fuel, rfl⟩ : ∃ n, fuel = n + 1 := ⟨fuel - 1, by simp at hfuel; omega⟩
  exact readValue_object_nil hcs rfl

/-- One member is read, up to what follows it. -/
theorem readMembers_member {name : String} {d : Document} (hname : IsRaw name) {fuel : Nat}
    {cs value rest : List Char}
    (hcs : skipSpace cs = '"' :: (name.toList ++ '"' :: ':' :: value))
    (hvalue : readValue fuel value = (d, some rest)) :
    readMembers (fuel + 1) cs =
      match skipSpace rest with
      | ',' :: rest => ((name, d) :: (readMembers fuel rest).1, (readMembers fuel rest).2)
      | '\x7d' :: rest => ([(name, d)], some rest)
      | _ => ([(name, d), ("", .cut)], none) := by
  rw [readMembers, hcs]
  conv_lhs => whnf
  rw [hname.taken]
  dsimp only
  rw [skipSpace_of_headNot (headNot_cons (by decide))]
  conv_lhs => whnf
  rewrite [hvalue, String.ofList_toList]
  rfl

/-- The last member is read back if its document is. -/
theorem readsMembers_nil {name : String} {d : Document} (hname : IsRaw name) (hd : d.IsWritten)
    (h : ReadsValue d) : ReadsMembers name d [] := by
  intro fuel level outer cs rest hfuel hcs
  obtain ⟨fuel, rfl⟩ : ∃ n, fuel = n + 1 := ⟨fuel - 1, by omega⟩
  have hvalue := h fuel level _ ((newline outer).toList ++ '\x7d' :: rest) (by omega)
    (skipSpace_blank (headNot_isSpace_prettyAt level hd _)) (endsNumeral_newline outer _)
  rw [readMembers_member hname hcs hvalue, skipSpace_newline outer (headNot_cons (by decide))]
  rfl

/-- A member is read back with those after it. -/
theorem readsMembers_cons {name next : String} {d e : Document}
    {members : List (String × Document)} (hname : IsRaw name) (hd : d.IsWritten)
    (hvalue : ReadsValue d) (h : ReadsMembers next e members) :
    ReadsMembers name d ((next, e) :: members) := by
  intro fuel level outer cs rest hfuel hcs
  rw [toList_prettyMembers_cons] at hfuel hcs
  simp only [List.length_cons, List.length_append] at hfuel
  simp only [List.cons_append, List.append_assoc] at hcs
  obtain ⟨fuel, rfl⟩ : ∃ n, fuel = n + 1 := ⟨fuel - 1, by omega⟩
  have hread : ∀ text, readValue fuel (' ' :: ((d.prettyAt level).toList ++ ',' :: text)) =
      (d, some (',' :: text)) := fun text =>
    hvalue fuel level _ _ (by omega) (skipSpace_blank (headNot_isSpace_prettyAt level hd _))
      (headNot_cons (by decide))
  have hmembers := h fuel level outer _ rest (by omega)
    (skipSpace_newline level (headNot_cons (by decide)))
  rw [readMembers_member hname hcs (hread _), skipSpace_of_headNot (headNot_cons (by decide))]
  show ((name, d) :: (readMembers fuel _).1, (readMembers fuel _).2) = _
  rw [hmembers]

/-- So are all members, if the document of each is read back on its own. -/
theorem readsMembers {name : String} {d : Document} {members : List (String × Document)}
    (h : ∀ m ∈ (name, d) :: members, IsRaw m.1 ∧ m.2.IsWritten ∧ ReadsValue m.2) :
    ReadsMembers name d members := by
  induction members generalizing name d with
  | nil =>
    obtain ⟨hname, hd, hvalue⟩ := h (name, d) List.mem_cons_self
    exact readsMembers_nil hname hd hvalue
  | cons m rest ih =>
    obtain ⟨hname, hd, hvalue⟩ := h (name, d) List.mem_cons_self
    exact readsMembers_cons hname hd hvalue
      (ih fun m' hm' => h m' (List.mem_cons_of_mem (name, d) hm'))

/-- An object is read back if its members are. -/
theorem readsValue_object {name : String} {d : Document} {members : List (String × Document)}
    (h : ReadsMembers name d members) : ReadsValue (.object ((name, d) :: members)) := by
  intro fuel level cs rest hfuel hcs _
  rw [toList_prettyAt_object] at hfuel hcs
  simp only [List.length_cons, List.length_append] at hfuel
  simp only [List.cons_append, List.append_assoc, List.nil_append] at hcs
  obtain ⟨fuel, rfl⟩ : ∃ n, fuel = n + 1 := ⟨fuel - 1, by omega⟩
  have hquote : ∀ text : List Char, HeadNot isSpace ('"' :: text) :=
    fun _ => headNot_cons (by decide)
  have hmembers := h fuel (level + 1) level _ rest (by omega) (skipSpace_of_headNot (hquote _))
  rw [readValue_object hcs (skipSpace_newline (level + 1) (hquote _)) (by simp), hmembers]

/-! ### All values -/

mutual

/-- **The text of a written document is read as the document.** -/
theorem readsValue : (d : Document) → d.IsWritten → ReadsValue d
  | .null, _ => readsValue_null
  | .bool b, _ => readsValue_bool b
  | .number _, h => readsValue_number h
  | .string _, h => readsValue_string h
  | .array [], _ => readsValue_array_nil
  | .array (d :: items), h => readsValue_array h.1 (readsItems (readsEach (d :: items) h))
  | .object [], _ => readsValue_object_nil
  | .object ((name, d) :: members), h =>
    readsValue_object (readsMembers (readsEachMember ((name, d) :: members) h))
  | .cut, h => absurd h id

/-- Each item of an array is read back. -/
theorem readsEach : (items : List Document) → AreWritten items →
    ∀ e ∈ items, e.IsWritten ∧ ReadsValue e
  | [], _ => fun _ he => nomatch he
  | d :: items, h =>
    List.forall_mem_cons.2 ⟨⟨h.1, readsValue d h.1⟩, readsEach items h.2⟩

/-- So is what each member of an object holds. -/
theorem readsEachMember : (members : List (String × Document)) → MembersWritten members →
    ∀ m ∈ members, IsRaw m.1 ∧ m.2.IsWritten ∧ ReadsValue m.2
  | [], _ => fun _ hm => nomatch hm
  | (_, d) :: members, h =>
    List.forall_mem_cons.2 ⟨⟨h.1, h.2.1, readsValue d h.2.1⟩, readsEachMember members h.2.2⟩

end

/-! ## Whole texts -/

/-- A written document is the whole of its text. -/
theorem read_pretty {d : Document} (h : d.IsWritten) : read d.pretty.toList = (d, true) := by
  have hspace := headNot_isSpace_prettyAt 0 h []
  have hvalue := readsValue d h (2 * d.pretty.toList.length + 2) 0 d.pretty.toList []
    (by show 2 * d.pretty.toList.length ≤ _; omega)
    (by rw [List.append_nil] at hspace; rw [List.append_nil]; exact skipSpace_of_headNot hspace)
    (headNot_nil _)
  unfold read
  rw [hvalue]
  rfl

/-- The end of a line is text. -/
theorem strayByte_not_mem_newline (level : Nat) : Text.strayByte ∉ (newline level).toList := by
  rw [newline, String.toList_ofList]
  refine List.not_mem_cons_of_ne_of_not_mem (by decide) fun hmem => ?_
  exact absurd (List.eq_of_mem_replicate hmem) (by decide)

mutual

/-- No character of a written document is the mark of a stray byte. -/
theorem strayByte_not_mem_prettyAt : (d : Document) → d.IsWritten → ∀ level,
    Text.strayByte ∉ (d.prettyAt level).toList
  | .null, _, level => by
    simp [toList_prettyAt_null, Text.strayByte]
  | .bool b, _, level => by
    cases b <;> simp [toList_prettyAt_true, toList_prettyAt_false, Text.strayByte]
  | .number numeral, h, level => by
    rw [prettyAt_number]
    exact NumeralChars.strayByte_not_mem h
  | .string raw, h, level => by
    have hraw := h.strayByte_not_mem
    have hquote : Text.strayByte ≠ '"' := by decide
    simp [toList_prettyAt_string, hraw, hquote]
  | .array [], _, level => by
    simp [toList_prettyAt_array_nil, Text.strayByte]
  | .array (d :: items), h, level => by
    have hd := strayByte_not_mem_prettyAt d h.1 (level + 1)
    have hitems := strayByte_not_mem_prettyItems items h.2 (level + 1)
    have hbrackets : Text.strayByte ≠ '[' ∧ Text.strayByte ≠ ']' := by decide
    simp [toList_prettyAt_array, strayByte_not_mem_newline, hd, hitems, hbrackets]
  | .object [], _, level => by
    simp [toList_prettyAt_object_nil, Text.strayByte]
  | .object ((name, d) :: members), h, level => by
    have hname := h.1.strayByte_not_mem
    have hd := strayByte_not_mem_prettyAt d h.2.1 (level + 1)
    have hmembers := strayByte_not_mem_prettyMembers members h.2.2 (level + 1)
    have hmarks : Text.strayByte ≠ '\x7b' ∧ Text.strayByte ≠ '\x7d' ∧ Text.strayByte ≠ '"' ∧
        Text.strayByte ≠ ':' ∧ Text.strayByte ≠ ' ' := by decide
    simp [toList_prettyAt_object, strayByte_not_mem_newline, hname, hd, hmembers, hmarks]
  | .cut, h, _ => absurd h id

/-- So is what is written for items. -/
theorem strayByte_not_mem_prettyItems : (items : List Document) → AreWritten items → ∀ level,
    Text.strayByte ∉ (prettyItems level items).toList
  | [], _, level => by
    simp [toList_prettyItems_nil]
  | d :: items, h, level => by
    have hd := strayByte_not_mem_prettyAt d h.1 level
    have hitems := strayByte_not_mem_prettyItems items h.2 level
    have hcomma : Text.strayByte ≠ ',' := by decide
    simp [toList_prettyItems_cons, strayByte_not_mem_newline, hd, hitems, hcomma]

/-- So is what is written for members. -/
theorem strayByte_not_mem_prettyMembers : (members : List (String × Document)) →
    MembersWritten members → ∀ level, Text.strayByte ∉ (prettyMembers level members).toList
  | [], _, level => by
    simp [toList_prettyMembers_nil]
  | (name, d) :: members, h, level => by
    have hname := h.1.strayByte_not_mem
    have hd := strayByte_not_mem_prettyAt d h.2.1 level
    have hmembers := strayByte_not_mem_prettyMembers members h.2.2 level
    have hmarks : Text.strayByte ≠ ',' ∧ Text.strayByte ≠ '"' ∧ Text.strayByte ≠ ':' ∧
        Text.strayByte ≠ ' ' := by decide
    simp [toList_prettyMembers_cons, strayByte_not_mem_newline, hname, hd, hmembers, hmarks]

end

/-- A text without stray bytes is its own source. -/
theorem source_eq {cs : List Char} (h : Text.strayByte ∉ cs) : Text.source cs = cs := by
  unfold Text.source
  refine (List.map_congr_left fun c hc => ?_).trans (List.map_id cs)
  have hne : c ≠ Text.strayByte := fun heq => h (heq ▸ hc)
  rw [if_neg hne]
  rfl

/-- **The text of a written document is read as the document**, to its end. -/
theorem read_source_pretty {d : Document} (h : d.IsWritten) :
    read (Text.source d.pretty.toList) = (d, true) := by
  have hsource : Text.source d.pretty.toList = d.pretty.toList :=
    source_eq (strayByte_not_mem_prettyAt d h 0)
  rw [hsource, read_pretty h]

/-- Decoding a text that is read to its end is decoding the document in it. -/
theorem decodeSource_of_read {α : Type} (decode : Document → Decoded α) {d : Document}
    {text : String} (h : read (Text.source text.toList) = (d, true)) :
    decodeSource decode text = (decode d).mapError FormatError.ofDocument := by
  unfold decodeSource decodeChars
  rw [h]
  dsimp only
  cases decode d <;> rfl

/-- **Decoding the text of a written document is decoding the document.** -/
theorem decodeSource_pretty {α : Type} (decode : Document → Decoded α) {d : Document}
    (h : d.IsWritten) :
    decodeSource decode d.pretty = (decode d).mapError FormatError.ofDocument :=
  decodeSource_of_read decode (read_source_pretty h)

end Hotswap.Document
