import Hotswap.Decimal.Style
import Hotswap.Document
import Hotswap.Document.Text

/-!
# Writing documents

Two layouts of a document: `Document.compact` on one line and without blanks, and
`Document.pretty` with a line per item, two blanks of indent per level and `[]` and `{}` for what is
empty.
-/

namespace Hotswap.Document

/-! ## Leaves -/

/-- The document of a string. -/
def ofString (s : String) : Document := .string (String.ofList (encodeText s.toList))

/-- The document of a natural number. -/
def ofNat (n : Nat) : Document := .number (Nat.repr n)

/-- The document of an integer. -/
def ofInt (n : Int) : Document :=
  .number (if n < 0 then "-" ++ Nat.repr n.natAbs else Nat.repr n.natAbs)

/-- The document of a floating-point number; one without digits is `null`. -/
def ofFloat (x : Float) : Document :=
  match Decimal.BinaryFormat.double.parts x.toBits.toNat with
  | .finite .. => .number (Decimal.FloatStyle.document.render64 x)
  | _ => .null

/-- An object with names that need no escapes. -/
def ofMembers (members : List (String × Document)) : Document :=
  .object (members.map fun m => (String.ofList (encodeText m.1.toList), m.2))

/-- A string between quotes. -/
def quote (raw : String) : String := "\"" ++ raw ++ "\""

/-! ## On one line -/

mutual

/-- The document on one line. -/
def compact : Document → String
  | .null | .cut => "null"
  | .bool b => if b then "true" else "false"
  | .number numeral => numeral
  | .string raw => quote raw
  | .array [] => "[]"
  | .array (d :: rest) => "[" ++ d.compact ++ compactItems rest ++ "]"
  | .object [] => "\x7b\x7d"
  | .object ((name, d) :: rest) =>
    "\x7b" ++ quote name ++ ":" ++ d.compact ++ compactMembers rest ++ "\x7d"

/-- The items after the first one. -/
def compactItems : List Document → String
  | [] => ""
  | d :: rest => "," ++ d.compact ++ compactItems rest

/-- The members after the first one. -/
def compactMembers : List (String × Document) → String
  | [] => ""
  | (name, d) :: rest => "," ++ quote name ++ ":" ++ d.compact ++ compactMembers rest

end

/-! ## With a line per item -/

/-- A line end and the indent of a level. -/
def newline (level : Nat) : String := String.ofList ('\n' :: List.replicate (2 * level) ' ')

mutual

/-- The document with a line per item, at a level of nesting. -/
def prettyAt (level : Nat) : Document → String
  | .null | .cut => "null"
  | .bool b => if b then "true" else "false"
  | .number numeral => numeral
  | .string raw => quote raw
  | .array [] => "[]"
  | .array (d :: rest) =>
    "[" ++ newline (level + 1) ++ d.prettyAt (level + 1) ++ prettyItems (level + 1) rest ++
      newline level ++ "]"
  | .object [] => "\x7b\x7d"
  | .object ((name, d) :: rest) =>
    "\x7b" ++ newline (level + 1) ++ quote name ++ ": " ++ d.prettyAt (level + 1) ++
      prettyMembers (level + 1) rest ++ newline level ++ "\x7d"

/-- The items after the first one. -/
def prettyItems (level : Nat) : List Document → String
  | [] => ""
  | d :: rest => "," ++ newline level ++ d.prettyAt level ++ prettyItems level rest

/-- The members after the first one. -/
def prettyMembers (level : Nat) : List (String × Document) → String
  | [] => ""
  | (name, d) :: rest =>
    "," ++ newline level ++ quote name ++ ": " ++ d.prettyAt level ++ prettyMembers level rest

end

/-- The document with a line per item. -/
def pretty (d : Document) : String := d.prettyAt 0

end Hotswap.Document
