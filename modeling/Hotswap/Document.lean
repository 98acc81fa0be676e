/-!
# Documents

A `Document` is the syntax tree of a JSON text. Strings and numbers are kept as they are written:
the text between the quotes of a string with its escapes, the numeral of a number. What they stand
for is in `Hotswap.Document.Text` and `Hotswap.Document.Number`.

A text that stops being a document part way is kept up to that place, where the tree holds `cut`.
Nothing follows a `cut`. So a reader that goes through the tree from left to right reports whatever
is wrong before that place first.
-/

namespace Hotswap

/-- The syntax tree of a JSON text. -/
inductive Document where
  /-- The literal `null`. -/
  | null
  /-- The literals `true` and `false`. -/
  | bool (value : Bool)
  /-- A number, as its numeral. -/
  | number (numeral : String)
  /-- A string, as the text between its quotes. -/
  | string (raw : String)
  /-- An array. -/
  | array (items : List Document)
  /-- An object, its members in the order written, with names as the text between their quotes. -/
  | object (members : List (String × Document))
  /-- The place where the text stops being a document. -/
  | cut
  deriving Repr, Inhabited

namespace Document

mutual

/-- Whether the whole document is there. -/
def isComplete : Document → Bool
  | .null | .bool _ | .number _ | .string _ => true
  | .array items => areComplete items
  | .object members => membersComplete members
  | .cut => false

/-- Whether every item is there. -/
def areComplete : List Document → Bool
  | [] => true
  | d :: rest => d.isComplete && areComplete rest

/-- Whether every member is there. -/
def membersComplete : List (String × Document) → Bool
  | [] => true
  | (_, d) :: rest => d.isComplete && membersComplete rest

end

end Document

end Hotswap
