import Hotswap.Opcode.Table

/-!
# Looking up an opcode

An opcode is written in a descriptor as a name or as a code. Names are read loosely: letter case
does not matter, `_` stands for `.`, and dots at the end are dropped, so that `ldc.i4.m1` and
`Ldc_I4_M1` name one opcode and so do `unaligned.` and `Unaligned`. A name matches an opcode when
the normal form of the name is the normal form of its mnemonic or of one of its aliases.
-/

namespace Hotswap.Opcode

/-- The normal form of a name, as characters: lower case, `_` read as `.`, no dots at the end. -/
def normalChars (cs : List Char) : List Char :=
  ((cs.map fun c => if c = '_' then '.' else c.toLower).reverse.dropWhile (· == '.')).reverse

/-- The normal form of a name. -/
def normalName (name : String) : String := String.ofList (normalChars name.toList)

/-- The normal forms under which an opcode is found. -/
def spellings (op : Opcode) : List String := (op.mnemonic :: op.row.aliases).map normalName

/-- Every spelling with its opcode, by code. -/
def spellingTable : List (String × Opcode) :=
  all.flatMap fun op => op.spellings.map fun s => (s, op)

/-- The opcode with a name. -/
def ofName? (name : String) : Option Opcode :=
  (spellingTable.find? fun entry => entry.1 == normalName name).map (·.2)

/-- The opcode with a code. -/
def ofCode? (code : Nat) : Option Opcode := all[code]?

/-- The opcode with an encoding. -/
def ofEncoding? (encoding : UInt16) : Option Opcode := all.find? fun op => op.encoding == encoding

/-- Every code is read back. -/
theorem ofCode?_code (op : Opcode) : ofCode? op.code = some op := all_getElem?_code op

end Hotswap.Opcode
