/-!
# Replacing a piece of text

`replaceAll` goes through a text from left to right and puts a replacement in the place of every
occurrence of a piece. What has been put in is not looked at again.
-/

namespace Hotswap.Text

/-- Passes over the characters of an occurrence that are still to be dropped, then looks for the
piece at each position. -/
def replaceFrom (piece replacement : List Char) : Nat → List Char → List Char
  | _, [] => []
  | skip + 1, _ :: rest => replaceFrom piece replacement skip rest
  | 0, c :: rest =>
    if piece.isPrefixOf (c :: rest) then
      replacement ++ replaceFrom piece replacement (piece.length - 1) rest
    else c :: replaceFrom piece replacement 0 rest

/-- Replaces every occurrence of a piece, which is not empty. -/
def replaceAll (piece replacement text : String) : String :=
  String.ofList (replaceFrom piece.toList replacement.toList 0 text.toList)

end Hotswap.Text
