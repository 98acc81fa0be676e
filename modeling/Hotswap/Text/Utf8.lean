/-!
# Text out of bytes

Files are bytes, and documents are read from characters. `Text.decode` gives the characters of a
file, and `Text.source` those of a text. In both, the null character stands for a byte that is part
of no character. A null character of the text itself becomes another control, which changes no
reading: a document holds controls nowhere, and only through their escapes.
-/

namespace Hotswap.Text

/-- Stands for a byte that is part of no character. -/
def strayByte : Char := '\x00'

/-- The characters of a text, none of which is `strayByte`. -/
def source (cs : List Char) : List Char := cs.map fun c => if c = strayByte then '\x01' else c

/-- The character that starts a list of bytes, with its length. -/
def firstChar? (bytes : List UInt8) : Option (Char × Nat) :=
  [1, 2, 3, 4].findSome? fun n =>
    match (String.fromUTF8? ⟨(bytes.take n).toArray⟩).map String.toList with
    | some [c] => some (c, n)
    | _ => none

/-- The characters of a list of bytes, with `strayByte` for each byte that is part of none. -/
def sourceOfBytes : List UInt8 → List Char
  | [] => []
  | b :: rest =>
    match firstChar? (b :: rest) with
    | some (c, n) => source [c] ++ sourceOfBytes (rest.drop (n - 1))
    | none => strayByte :: sourceOfBytes rest
termination_by bytes => bytes.length
decreasing_by all_goals simp only [List.length_drop, List.length_cons]; omega

/-- The characters of a file. -/
def decode (bytes : ByteArray) : List Char :=
  match String.fromUTF8? bytes with
  | some s => source s.toList
  | none => sourceOfBytes bytes.toList

end Hotswap.Text
