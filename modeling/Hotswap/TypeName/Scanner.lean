import Hotswap.Text.Blank
import Hotswap.TypeName

/-!
# Reading type names

The grammar of type names, read from left to right:

```text
type   := blank* ( "!!" digits | "!" digits | name [ "<" list ">" ] ) suffix*
suffix := "[]" | "&" | "*"
list   := blank* | type blank* ( "," type blank* )*
```

A name is the longest run of name characters and generated segments. A generated segment is a
balanced `<...>`, with any characters inside, that opens at the start of the name or right after a
`.` or a `/`; any other `<` opens an argument list.

The readers work on a `Cursor`, the unread characters with the number of bytes before them. Nested
argument lists make the reader recursive, and it runs on fuel that `TypeName.parse` computes from
the length of the text; every type takes at least one character, so the fuel does not run out.
-/

namespace Hotswap

/-- The unread part of a text. -/
structure Cursor where
  /-- The characters not read yet. -/
  rest : List Char
  /-- The number of bytes before them. -/
  column : Nat
  deriving DecidableEq, Repr

/-- Why reading stopped. -/
structure ScanError where
  /-- The number of bytes before the place. -/
  column : Nat
  /-- What is wrong there. -/
  reason : String
  deriving DecidableEq, Repr

/-- The fault with its place, for a text whose own wording has no column. -/
def ScanError.described (e : ScanError) : String := e.reason ++ " at column " ++ Nat.repr e.column

/-- The number of bytes of some characters. -/
def byteCount (cs : List Char) : Nat := cs.foldr (fun c n => c.utf8Size + n) 0

namespace Cursor

/-- The cursor before a whole text. -/
def ofString (text : String) : Cursor := ⟨text.toList, 0⟩

/-- The cursor after some of the unread characters. -/
def after (c : Cursor) (taken rest : List Char) : Cursor := ⟨rest, c.column + byteCount taken⟩

/-- The fault at a cursor. -/
def fail (c : Cursor) (reason : String) : ScanError := ⟨c.column, reason⟩

/-- The cursor after the blanks in front of it. -/
def skipBlanks (c : Cursor) : Cursor :=
  c.after (c.rest.takeWhile Text.isBlank) (c.rest.dropWhile Text.isBlank)

/-- The cursor after a text that must stand in front of it. -/
def eat? (c : Cursor) (text : List Char) : Option Cursor :=
  if text.isPrefixOf c.rest then some (c.after text (c.rest.drop text.length)) else none

/-- Whether a character is next. -/
def isAt (c : Cursor) (ch : Char) : Bool := c.rest.head? == some ch

/-- Requires that nothing but blanks is left. -/
def finish (c : Cursor) : Except ScanError Unit :=
  let c := c.skipBlanks
  if c.rest.isEmpty then .ok () else .error (c.fail "trailing characters")

/-- Reads the number of a placeholder. -/
def digits (c : Cursor) : Except ScanError (UInt32 × Cursor) :=
  let ds := c.rest.takeWhile Char.isDigit
  let c := c.after ds (c.rest.dropWhile Char.isDigit)
  let n := Decimal.natOfDigits ds
  if ds.isEmpty ∨ UInt32.size ≤ n then .error (c.fail "expected placeholder index")
  else .ok (UInt32.ofNat n, c)

end Cursor

/-! ## Names -/

/-- Whether a character may stand in a name outside a generated segment. -/
def isNameChar (c : Char) : Bool :=
  !Text.isBlank c && !(['<', '>', ',', '(', ')', '[', ']', '&', '*', ':'].contains c)

/-- Splits a name off the front. `depth` counts the generated segments that are open, and `fresh`
says that one may open here. There is no answer when a segment is never closed. -/
def takeName : (depth : Nat) → (fresh : Bool) → List Char → Option (List Char × List Char)
  | 0, _, [] => some ([], [])
  | _ + 1, _, [] => none
  | 0, fresh, c :: rest =>
    if c = '<' ∧ fresh then (takeName 1 false rest).map fun (name, rest) => (c :: name, rest)
    else if isNameChar c then
      (takeName 0 (c == '.' || c == '/') rest).map fun (name, rest) => (c :: name, rest)
    else some ([], c :: rest)
  | depth + 1, _, c :: rest =>
    let depth := if c = '<' then depth + 2 else if c = '>' then depth else depth + 1
    (takeName depth false rest).map fun (name, rest) => (c :: name, rest)

/-- Reads a name. -/
def Cursor.name (c : Cursor) : Except ScanError (String × Cursor) :=
  match takeName 0 true c.rest with
  | none => .error ((c.after c.rest []).fail "unterminated '<' in name")
  | some ([], _) => .error (c.fail "expected a name")
  | some (name, rest) => .ok (String.ofList name, c.after name rest)

/-! ## Types -/

/-- Reads the suffixes of a type from the unread characters and the bytes before them. -/
def readSuffixes (t : TypeName) : List Char → Nat → Except ScanError (TypeName × Cursor)
  | '[' :: ']' :: rest, column => readSuffixes (.suffixed t .array) rest (column + 2)
  | '&' :: rest, column => readSuffixes (.suffixed t .byRef) rest (column + 1)
  | '*' :: rest, column => readSuffixes (.suffixed t .pointer) rest (column + 1)
  | '[' :: _, column => .error ⟨column, "only single-dimension arrays are supported"⟩
  | rest, column => .ok (t, ⟨rest, column⟩)

mutual

/-- Reads a type. -/
def readType : Nat → Cursor → Except ScanError (TypeName × Cursor)
  | 0, c => .error (c.fail "expected a name")
  | fuel + 1, c => do
    let c := c.skipBlanks
    match c.eat? ['!', '!'] with
    | some c =>
      let (index, c) ← c.digits
      readSuffixes (.methodParam index) c.rest c.column
    | none =>
      match c.eat? ['!'] with
      | some c =>
        let (index, c) ← c.digits
        readSuffixes (.typeParam index) c.rest c.column
      | none =>
        let (name, c) ← c.name
        match c.eat? ['<'] with
        | none => readSuffixes (.named name []) c.rest c.column
        | some c =>
          match c.skipBlanks.eat? ['>'] with
          | some c => readSuffixes (.named name []) c.rest c.column
          | none =>
            let (args, c) ← readTypes fuel '>' c.skipBlanks
            readSuffixes (.named name args) c.rest c.column

/-- Reads one type or more with commas between them, up to a closing bracket. -/
def readTypes : Nat → (close : Char) → Cursor → Except ScanError (List TypeName × Cursor)
  | 0, _, c => .error (c.fail "expected a name")
  | fuel + 1, close, c => do
    let (t, c) ← readType fuel c
    let c := c.skipBlanks
    match c.eat? [','] with
    | some c =>
      let (rest, c) ← readTypes fuel close c
      return (t :: rest, c)
    | none =>
      match c.eat? [close] with
      | some c => return ([t], c)
      | none => .error (c.fail ("expected ',' or '" ++ close.toString ++ "'"))

end

namespace Cursor

/-- Enough fuel to read any type from here. -/
def fuel (c : Cursor) : Nat := 2 * c.rest.length + 2

/-- Reads a type. -/
def type (c : Cursor) : Except ScanError (TypeName × Cursor) := readType c.fuel c

/-- Reads the types of a list whose opening bracket has been read, up to its closing bracket. -/
def types (c : Cursor) (close : Char) : Except ScanError (List TypeName × Cursor) :=
  match c.skipBlanks.eat? [close] with
  | some c => .ok ([], c)
  | none => readTypes c.fuel close c.skipBlanks

end Cursor

/-- Reads a type name that makes up a whole text. -/
def TypeName.scan (text : String) : Except ScanError TypeName := do
  let (t, c) ← (Cursor.ofString text).type
  c.finish
  return t

/-- Reads a type name. -/
def TypeName.parse (text : String) : Except FormatError TypeName :=
  match TypeName.scan text with
  | .ok t => .ok t
  | .error e => .error (.invalidTypeName text e.column e.reason)

/-- Reads several type names, from left to right. -/
def TypeName.parseAll : List String → Except FormatError (List TypeName)
  | [] => .ok []
  | text :: rest => do
    let t ← TypeName.parse text
    let rest ← TypeName.parseAll rest
    return t :: rest

end Hotswap
