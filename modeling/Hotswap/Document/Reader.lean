import Hotswap.Document
import Hotswap.Document.Text

/-!
# Reading documents

Reading gives the tree of a text and tells whether anything but blanks follows it. Each reader
returns what it has read with the characters after it, or with nothing when the text stopped being
a document; in that case the tree ends in `cut`.

Arrays and objects nest, so the reader of values runs on fuel. Every value takes at least one
character, and `Document.read` starts with enough fuel for the length of the text.
-/

namespace Hotswap.Document

/-- Whether a character may stand between the tokens of a document. -/
def isSpace (c : Char) : Bool := c == ' ' || c == '\n' || c == '\t' || c == '\r'

/-- The characters after the blanks in front. -/
def skipSpace (cs : List Char) : List Char := cs.dropWhile isSpace

/-- Whether a character may stand unescaped in a string. A byte that is part of no character may:
only decoding the string refuses it. -/
def isPlain (c : Char) : Bool := c != '\\' && (0x20 ≤ c.toNat || c == Text.strayByte)

/-- Splits the rest of a string off, after its opening quote: the text up to the closing quote and
the characters after that. -/
def takeString : List Char → Option (List Char × List Char)
  | [] => none
  | '\\' :: 'u' :: a :: b :: c :: d :: rest =>
    if (fourHex? a b c d).isSome then
      (takeString rest).map fun (raw, rest) => ('\\' :: 'u' :: a :: b :: c :: d :: raw, rest)
    else none
  | '\\' :: e :: rest =>
    if (shortEscape? e).isSome then
      (takeString rest).map fun (raw, rest) => ('\\' :: e :: raw, rest)
    else none
  | c :: rest =>
    if c = '"' then some ([], rest)
    else if isPlain c then (takeString rest).map fun (raw, rest) => (c :: raw, rest)
    else none

/-- Splits one digit or more off. -/
def takeDigits (cs : List Char) : Option (List Char × List Char) :=
  let digits := cs.takeWhile Char.isDigit
  if digits.isEmpty then none else some (digits, cs.dropWhile Char.isDigit)

/-- Splits the whole part of a numeral off; it has no zero in front of other digits. -/
def takeWhole (cs : List Char) : Option (List Char × List Char) :=
  match takeDigits cs with
  | some ('0' :: _ :: _, _) => none
  | other => other

/-- Splits the decimals of a numeral off, with their point. -/
def takeDecimals : List Char → Option (List Char × List Char)
  | '.' :: rest => (takeDigits rest).map fun (digits, rest) => ('.' :: digits, rest)
  | cs => some ([], cs)

/-- Splits the exponent of a numeral off, with its mark and its sign. -/
def takeExponent : List Char → Option (List Char × List Char)
  | e :: rest =>
    if e = 'e' ∨ e = 'E' then
      let (sign, rest) := match rest with
        | '+' :: rest => (['+'], rest)
        | '-' :: rest => (['-'], rest)
        | rest => ([], rest)
      (takeDigits rest).map fun (digits, rest) => (e :: sign ++ digits, rest)
    else some ([], e :: rest)
  | [] => some ([], [])

/-- Splits a numeral off. -/
def takeNumeral (cs : List Char) : Option (List Char × List Char) := do
  let (sign, cs) := match cs with
    | '-' :: rest => (['-'], rest)
    | cs => ([], cs)
  let (whole, cs) ← takeWhole cs
  let (decimals, cs) ← takeDecimals cs
  let (exponent, cs) ← takeExponent cs
  return (sign ++ whole ++ decimals ++ exponent, cs)

/-- A document with the characters after it, if the text goes on as one. -/
abbrev Read (α : Type) := α × Option (List Char)

/-- Reads a literal that must stand in front. -/
def readLiteral (word : List Char) (value : Document) (cs : List Char) : Read Document :=
  if word.isPrefixOf cs then (value, some (cs.drop word.length)) else (.cut, none)

mutual

/-- Reads a value. -/
def readValue : Nat → List Char → Read Document
  | 0, _ => (.cut, none)
  | fuel + 1, cs =>
    match skipSpace cs with
    | [] => (.cut, none)
    | '[' :: rest =>
      match skipSpace rest with
      | ']' :: rest => (.array [], some rest)
      | rest =>
        let (items, after) := readItems fuel rest
        (.array items, after)
    | '{' :: rest =>
      match skipSpace rest with
      | '}' :: rest => (.object [], some rest)
      | rest =>
        let (members, after) := readMembers fuel rest
        (.object members, after)
    | '"' :: rest =>
      match takeString rest with
      | some (raw, rest) => (.string (String.ofList raw), some rest)
      | none => (.cut, none)
    | c :: rest =>
      if c = 'n' then readLiteral ['u', 'l', 'l'] .null rest
      else if c = 't' then readLiteral ['r', 'u', 'e'] (.bool true) rest
      else if c = 'f' then readLiteral ['a', 'l', 's', 'e'] (.bool false) rest
      else
        match takeNumeral (c :: rest) with
        | some (numeral, rest) => (.number (String.ofList numeral), some rest)
        | none => (.cut, none)

/-- Reads one item or more, up to the end of an array. -/
def readItems : Nat → List Char → Read (List Document)
  | 0, _ => ([.cut], none)
  | fuel + 1, cs =>
    match readValue fuel cs with
    | (d, none) => ([d], none)
    | (d, some rest) =>
      match skipSpace rest with
      | ',' :: rest =>
        let (items, after) := readItems fuel rest
        (d :: items, after)
      | ']' :: rest => ([d], some rest)
      | _ => ([d, .cut], none)

/-- Reads one member or more, up to the end of an object. -/
def readMembers : Nat → List Char → Read (List (String × Document))
  | 0, _ => ([("", .cut)], none)
  | fuel + 1, cs =>
    match skipSpace cs with
    | '"' :: rest =>
      match takeString rest with
      | none => ([("", .cut)], none)
      | some (raw, rest) =>
        let name := String.ofList raw
        match skipSpace rest with
        | ':' :: rest =>
          match readValue fuel rest with
          | (d, none) => ([(name, d)], none)
          | (d, some rest) =>
            match skipSpace rest with
            | ',' :: rest =>
              let (members, after) := readMembers fuel rest
              ((name, d) :: members, after)
            | '}' :: rest => ([(name, d)], some rest)
            | _ => ([(name, d), ("", .cut)], none)
        | _ => ([(name, .cut)], none)
    | _ => ([("", .cut)], none)

end

/-- Reads a text: its tree, and whether the tree is the whole of it. -/
def read (cs : List Char) : Document × Bool :=
  match readValue (2 * cs.length + 2) cs with
  | (d, none) => (d, false)
  | (d, some rest) => (d, (skipSpace rest).isEmpty)

end Hotswap.Document
