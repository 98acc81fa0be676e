import Hotswap.Text.Hex
import Hotswap.Text.Hidden

/-!
# Quoted text

How a string literal is shown in a listing or in a description of a value: between double quotes,
with a backslash before a quote or a backslash, short escapes for the null character, the tab and
the line ends, and a numeric escape for every other character that cannot be shown.
-/

namespace Hotswap.Text

/-- How one character is shown inside quotes. -/
def quotedChar (c : Char) : String :=
  if c = '\x00' then "\\0"
  else if c = '\t' then "\\t"
  else if c = '\n' then "\\n"
  else if c = '\r' then "\\r"
  else if c = '"' then "\\\""
  else if c = '\\' then "\\\\"
  else if isHidden c then "\\u\x7b" ++ hex c.toNat ++ "\x7d"
  else String.singleton c

/-- A string between quotes. -/
def quoted (s : String) : String := "\"" ++ String.join (s.toList.map quotedChar) ++ "\""

end Hotswap.Text
