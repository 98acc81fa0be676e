import Hotswap.Document.Number
import Hotswap.Document.Reader
import Hotswap.FormatError

/-!
# Decoding documents

Decoding goes through a document from left to right and stops at the first fault. A fault is either
a cause of this library's own, such as a name that cannot be read, or `malformedDocument`: the
document has another shape than expected, or it is cut off.

Records are written as objects or as arrays. In an object the names of the fields may have two
spellings, other members are skipped, and a field may be given once. In an array the values stand in
the order of the fields, and fields at the end may be left out.

A document may nest at most 127 levels deep where it is decoded. What is skipped is not decoded: it
has to be complete, but what its strings and its numbers stand for and its depth do not matter.
-/

namespace Hotswap.Document

/-- The number of levels a document may nest, and one. -/
def depthLimit : Nat := 128

mutual

/-- Whether everything in a document can be decoded, with a number of levels left. -/
def isReadable : (levels : Nat) → Document → Bool
  | _, .null | _, .bool _ => true
  | _, .number numeral => (numberOf? numeral).isSome
  | _, .string raw => (textOf? raw).isSome
  | levels, .array items => decide (1 < levels) && areReadable (levels - 1) items
  | levels, .object members => decide (1 < levels) && membersReadable (levels - 1) members
  | _, .cut => false

/-- Whether every item can be decoded. -/
def areReadable : (levels : Nat) → List Document → Bool
  | _, [] => true
  | levels, d :: rest => isReadable levels d && areReadable levels rest

/-- Whether every member can be decoded. -/
def membersReadable : (levels : Nat) → List (String × Document) → Bool
  | _, [] => true
  | levels, (name, d) :: rest =>
    (textOf? name).isSome && isReadable levels d && membersReadable levels rest

end

/-! ## Leaves -/

/-- The result of decoding. -/
abbrev Decoded (α : Type) := Except FormatError α

/-- Requires that something is there. -/
def require : Option α → Decoded α
  | some a => .ok a
  | none => .error .malformedDocument

/-- Decodes a string. -/
def decodeString : Document → Decoded String
  | .string raw => require (textOf? raw)
  | _ => .error .malformedDocument

/-- Decodes a truth value. -/
def decodeBool : Document → Decoded Bool
  | .bool b => .ok b
  | _ => .error .malformedDocument

/-- Decodes a natural number that is less than a bound. -/
def decodeBelow (bound : Nat) : Document → Decoded Nat
  | .number numeral => require ((numberOf? numeral).bind (·.below? bound))
  | _ => .error .malformedDocument

/-- Decodes a natural number of 32 bits. -/
def decodeUInt32 (d : Document) : Decoded UInt32 := UInt32.ofNat <$> decodeBelow UInt32.size d

/-- Decodes `null` as nothing. -/
def decodeOption (decode : Document → Decoded α) : Document → Decoded (Option α)
  | .null => .ok none
  | d => some <$> decode d

/-- Decodes each item of a list. -/
def decodeItems (decode : Document → Decoded α) : List Document → Decoded (List α)
  | [] => .ok []
  | d :: rest => do
    let a ← decode d
    let rest ← decodeItems decode rest
    return a :: rest

/-- Decodes an array. -/
def decodeArray (decode : Document → Decoded α) : Document → Decoded (List α)
  | .array items => decodeItems decode items
  | _ => .error .malformedDocument

/-! ## Records -/

/-- A field of a record: its two spellings. -/
structure Field where
  /-- The spelling that is written. -/
  name : String
  /-- The other spelling that is read. -/
  alternative : String
  deriving DecidableEq

/-- The number of the field with a spelling. -/
def fieldIndex? (fields : List Field) (name : String) : Option Nat :=
  fields.findIdx? fun f => f.name == name || f.alternative == name

/-- Goes through the members of an object. `given` holds the numbers of the fields met so far, and
`step` decodes the value of a field into the draft of the record. -/
def decodeMembers (fields : List Field) (step : δ → Nat → Document → Decoded δ) :
    (given : List Nat) → δ → List (String × Document) → Decoded δ
  | _, draft, [] => .ok draft
  | given, draft, (raw, d) :: rest => do
    let name ← require (textOf? raw)
    match fieldIndex? fields name with
    | some i =>
      if given.contains i then .error .malformedDocument
      else decodeMembers fields step (i :: given) (← step draft i d) rest
    | none =>
      if d.isComplete then decodeMembers fields step given draft rest
      else .error .malformedDocument

/-- Goes through the items of an array, the first of which is the value of field `i`. -/
def decodeSequence (count : Nat) (step : δ → Nat → Document → Decoded δ) :
    (i : Nat) → δ → List Document → Decoded δ
  | _, draft, [] => .ok draft
  | i, draft, d :: rest => do
    if i < count then decodeSequence count step (i + 1) (← step draft i d) rest
    else .error .malformedDocument

/-- Decodes a record into a draft of it. -/
def decodeRecord (fields : List Field) (step : δ → Nat → Document → Decoded δ) (draft : δ) :
    Document → Decoded δ
  | .object members => decodeMembers fields step [] draft members
  | .array items => decodeSequence fields.length step 0 draft items
  | _ => .error .malformedDocument

/-! ## Whole texts -/

/-- Decodes characters that hold one document and blanks around it. -/
def decodeChars (decode : Document → Decoded α) (cs : List Char) : Except FormatError α :=
  let (d, whole) := read cs
  match decode d with
  | .error e => .error e.ofDocument
  | .ok a => if whole then .ok a else .error .malformedDocument

/-- Decodes a text. -/
def decodeSource (decode : Document → Decoded α) (text : String) : Except FormatError α :=
  decodeChars decode (Text.source text.toList)

/-- Decodes the content of a file. -/
def decodeBytes (decode : Document → Decoded α) (bytes : ByteArray) : Except FormatError α :=
  decodeChars decode (Text.decode bytes)

end Hotswap.Document
