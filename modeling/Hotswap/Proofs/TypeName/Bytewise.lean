import Hotswap.Signature
import Mathlib

/-!
# Scanning by byte positions

The readers of type names and references keep the characters that are left to read. A scanner can
do with less: a byte position in the text, and slices of the text to look at what is there. This
file is the same grammar read in that manner. Such a scanner trusts its position, and three things
can go wrong that have no place in the readers:

* a slice may lie outside the text, or begin or end inside a character (`Halt.badSlice`);
* the number of open brackets in a generated segment may be lowered below zero (`Halt.belowZero`);
* it has no fuel, so it may go on for ever, which is no outcome at all (`none`).

The scanner keeps a record of every position it has been at and of every call of a name, a segment,
a type or a list that succeeded. What is known of the record, and that none of the three happens, is
in `Hotswap.Proofs.Signature.Bytewise`.
-/

namespace Hotswap

/-- A byte offset within a text at which a character starts, or at which the text ends. -/
def IsBoundary (text : String) (offset : Nat) : Prop :=
  offset ≤ text.utf8ByteSize ∧ (String.Pos.Raw.mk offset).IsValid text

instance (text : String) (offset : Nat) : Decidable (IsBoundary text offset) :=
  inferInstanceAs (Decidable (_ ∧ _))

/-- The characters between two byte offsets. There are none to give unless both offsets are
boundaries and in this order. -/
def slice? (text : String) (start stop : Nat) : Option (List Char) := do
  let p ← text.pos? ⟨start⟩
  let q ← text.pos? ⟨stop⟩
  if h : p ≤ q then some (text.slice p q h).copy.toList else none

namespace Bytewise

/-! ## Scans -/

/-- The scans whose calls are recorded. -/
inductive Reader where
  /-- A name. -/
  | name
  /-- A generated segment of a name. -/
  | segment
  /-- A type. -/
  | type
  /-- A list with its brackets. -/
  | list
  deriving DecidableEq, Repr

/-- A call that has succeeded. -/
structure Span where
  /-- What was called. -/
  reader : Reader
  /-- The position before the call. -/
  start : Nat
  /-- The position after it. -/
  stop : Nat
  deriving DecidableEq, Repr

/-- Where a scan is and where it has been. -/
structure Track where
  /-- The position. -/
  position : Nat := 0
  /-- Every position so far, the last one first. -/
  visited : List Nat := [0]
  /-- The calls that have succeeded, the last one first. -/
  spans : List Span := []
  deriving DecidableEq, Repr

/-- Why a scan stops without a result. -/
inductive Halt where
  /-- The text is refused. -/
  | refused (e : FormatError)
  /-- A slice begins or ends off the boundaries of the text, or ends before it begins. -/
  | badSlice (start stop : Nat)
  /-- A count is lowered below zero. -/
  | belowZero
  deriving DecidableEq, Repr

/-- A fault inside a reference is reported as one of the reference. -/
def Halt.inReference (text : String) : Halt → Halt
  | .refused (.invalidTypeName _ column reason) =>
    .refused (.invalidSignature text (reason ++ " at column " ++ Nat.repr column))
  | halt => halt

/-- A scan. One that goes on for ever has no outcome; any other one ends with a result or a halt,
and with its track in both cases. -/
abbrev Scan := ExceptT Halt (StateT Track Option)

/-- The outcome of a scan. -/
def Scan.outcome {α : Type} (m : Scan α) (t : Track) : Option (Except Halt α × Track) := m.run.run t

/-! ## Moving -/

/-- The position. -/
def position : Scan Nat := do return (← get).position

/-- Moves on by some bytes. -/
def move (bytes : Nat) : Scan Unit :=
  modify fun t =>
    { t with position := t.position + bytes, visited := (t.position + bytes) :: t.visited }

/-- Notes that a call has succeeded that began at a position. -/
def note (reader : Reader) (start : Nat) : Scan Unit :=
  modify fun t => { t with spans := ⟨reader, start, t.position⟩ :: t.spans }

/-- A call that is noted if it succeeds. -/
abbrev noting {α : Type} (reader : Reader) (m : Scan α) : Scan α := do
  let start ← position
  let a ← m
  note reader start
  return a

/-- Lowers a count. -/
def lower : Nat → Scan Nat
  | 0 => throw .belowZero
  | n + 1 => return n

/-- A text that is scanned. -/
abbrev Input := String

namespace Input

variable (text : Input)

/-- The characters between two positions. -/
def slice (start stop : Nat) : Scan (List Char) :=
  match slice? text start stop with
  | some cs => return cs
  | none => throw (.badSlice start stop)

/-- The characters from the position on. -/
def unread : Scan (List Char) := do slice text (← position) text.utf8ByteSize

/-- The next character. -/
def peek : Scan (Option Char) := do return (← unread text).head?

/-- Refuses the text for what is wrong at the position. -/
def refuse {α : Type} (reason : String) : Scan α := do
  throw (.refused (.invalidTypeName text (← position) reason))

/-- Takes the next character. -/
def bump : Scan (Option Char) := do
  match ← peek text with
  | none => return none
  | some c =>
    move c.utf8Size
    return some c

/-- Takes a character if it is next. -/
def eat (c : Char) : Scan Bool := do
  if (← peek text) = some c then
    move c.utf8Size
    return true
  else return false

/-- Takes a text if it is next. -/
def eatText (s : String) : Scan Bool := do
  if s.toList.isPrefixOf (← unread text) then
    move s.utf8ByteSize
    return true
  else return false

/-- Takes a character that must be next. -/
def expect (c : Char) : Scan Unit := do
  if ← eat text c then return ()
  else refuse text ("expected '" ++ c.toString ++ "'")

/-- Takes the characters of a kind, each as so many bytes as `width` says. -/
def skipWhile (text : Input) (kind : Char → Bool) (width : Char → Nat) : Scan Unit := do
  match ← peek text with
  | none => return ()
  | some c =>
    if kind c then
      move (width c)
      text |>.skipWhile kind width
    else return ()
partial_fixpoint

/-- Takes the blanks. -/
def skipBlanks : Scan Unit := skipWhile text Text.isBlank Char.utf8Size

/-- Requires that nothing but blanks is left. -/
def finish : Scan Unit := do
  skipBlanks text
  if text.utf8ByteSize ≤ (← position) then return () else refuse text "trailing characters"

/-- Takes the number of a placeholder. A digit is one byte. -/
def digits : Scan UInt32 := do
  let start ← position
  skipWhile text Char.isDigit fun _ => 1
  let ds ← slice text start (← position)
  let n := Decimal.natOfDigits ds
  if ds.isEmpty ∨ UInt32.size ≤ n then refuse text "expected placeholder index"
  else return UInt32.ofNat n

/-! ## Names -/

/-- Takes what is left of a generated segment in which some brackets are open. -/
def segmentLoop (text : Input) (depth : Nat) : Scan Unit := do
  match ← bump text with
  | none => refuse text "unterminated '<' in name"
  | some c =>
    if c = '<' then text |>.segmentLoop (depth + 1)
    else if c = '>' then
      let depth ← lower depth
      if depth = 0 then return () else text |>.segmentLoop depth
    else text |>.segmentLoop depth
partial_fixpoint

/-- Takes a generated segment. -/
def segment : Scan Unit := noting .segment (segmentLoop text 0)

/-- Whether a segment may open in a name that began at a position: where it began, or right after a
`.` or a `/`. -/
def mayOpenAt (start : Nat) : Scan Bool := do
  let here ← position
  if here = start then return true
  else
    match (← slice text 0 here).getLast? with
    | none => return false
    | some c => return c == '.' || c == '/'

/-- Takes what is left of a name that began at a position. -/
def nameLoop (text : Input) (start : Nat) : Scan Unit := do
  let fresh ← mayOpenAt text start
  match ← peek text with
  | none => return ()
  | some c =>
    if c = '<' ∧ fresh then
      segment text
      text |>.nameLoop start
    else if isNameChar c then
      let _ ← bump text
      text |>.nameLoop start
    else return ()
partial_fixpoint

/-- Takes a name. -/
def name : Scan String := noting .name do
  let start ← position
  nameLoop text start
  let stop ← position
  if stop = start then refuse text "expected a name"
  else return String.ofList (← slice text start stop)

/-! ## Types -/

/-- Takes the suffixes of a type. -/
def suffixes (text : Input) (t : TypeName) : Scan TypeName := do
  if ← eatText text "[]" then text |>.suffixes (.suffixed t .array)
  else if ← eat text '&' then text |>.suffixes (.suffixed t .byRef)
  else if ← eat text '*' then text |>.suffixes (.suffixed t .pointer)
  else if (← peek text) = some '[' then refuse text "only single-dimension arrays are supported"
  else return t
partial_fixpoint

mutual

/-- Takes a type. -/
def type (text : Input) : Scan TypeName := noting .type do
  skipBlanks text
  suffixes text (← text |>.base)
partial_fixpoint

/-- Takes a type without blanks in front and without suffixes. -/
def base (text : Input) : Scan TypeName := do
  if ← eatText text "!!" then return .methodParam (← digits text)
  else if ← eat text '!' then return .typeParam (← digits text)
  else
    let name ← name text
    if (← peek text) = some '<' then return .named name (← text |>.list '<' '>')
    else return .named name []
partial_fixpoint

/-- Takes a list with its brackets. -/
def list (text : Input) (opening closing : Char) : Scan (List TypeName) := noting .list do
  expect text opening
  text |>.items closing
partial_fixpoint

/-- Takes the types of a list, if there are any, and its closing bracket. -/
def items (text : Input) (closing : Char) : Scan (List TypeName) := do
  skipBlanks text
  if ← eat text closing then return []
  else text |>.someItems closing
partial_fixpoint

/-- Takes one type or more with commas between them, and the closing bracket. -/
def someItems (text : Input) (closing : Char) : Scan (List TypeName) := do
  let t ← text |>.type
  skipBlanks text
  if ← eat text ',' then return t :: (← text |>.someItems closing)
  else if ← eat text closing then return [t]
  else refuse text ("expected ',' or '" ++ closing.toString ++ "'")
partial_fixpoint

end

/-- Takes a type name that makes up the whole text. -/
def wholeType : Scan TypeName := do
  let t ← type text
  finish text
  return t

/-! ## References -/

/-- A scan inside a reference. -/
def within {α : Type} (m : Scan α) : Scan α := ExceptT.adapt (Halt.inReference text) m

/-- Takes `[type] type "::"`. -/
def leadingTypes : Scan (Option TypeName × TypeName) := do
  let first ← type text
  skipBlanks text
  if ← eatText text "::" then return (none, first)
  else
    let second ← type text
    skipBlanks text
    if ← eatText text "::" then return (some first, second)
    else refuse text "expected '::'"

/-- Takes the generic arguments of a method, if there are any. -/
def genericArgs : Scan (List TypeName) := do
  if (← peek text) = some '<' then list text '<' '>' else return []

/-- Takes a method reference. -/
def wholeMethodRef : Scan MethodRef := do
  let (returnType, declaringType) ← within text (leadingTypes text)
  let name ← within text (name text)
  let genericArgs ← within text (genericArgs text)
  skipBlanks text
  if (← peek text) ≠ some '(' then
    throw (.refused (.invalidSignature text "missing parameter list"))
  else
    let parameters ← within text (list text '(' ')')
    within text (finish text)
    return ⟨returnType, ⟨declaringType, name, genericArgs, parameters⟩⟩

/-- Takes a field reference. -/
def wholeFieldRef : Scan FieldRef := within text do
  let (fieldType, declaringType) ← leadingTypes text
  let name ← name text
  finish text
  return ⟨fieldType, declaringType, name⟩

end Input

end Bytewise

end Hotswap
