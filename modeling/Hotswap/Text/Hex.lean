/-!
# Hexadecimal text

Lower-case hexadecimal numerals, for offsets, content keys and escapes.
-/

namespace Hotswap.Text

/-- The lower-case hexadecimal digit of a number below sixteen. -/
def hexDigit (n : Nat) : Char := Nat.digitChar n

/-- The value of a hexadecimal digit, of either case. -/
def hexValue? (c : Char) : Option Nat :=
  if '0' ≤ c ∧ c ≤ '9' then some (c.toNat - '0'.toNat)
  else if 'a' ≤ c ∧ c ≤ 'f' then some (c.toNat - 'a'.toNat + 10)
  else if 'A' ≤ c ∧ c ≤ 'F' then some (c.toNat - 'A'.toNat + 10)
  else none

/-- The shortest hexadecimal numeral of a number. -/
def hex (n : Nat) : String := String.ofList (Nat.toDigits 16 n)

/-- The hexadecimal numeral of a number, with zeros in front up to a width. -/
def hexPadded (width n : Nat) : String :=
  let digits := Nat.toDigits 16 n
  String.ofList (List.replicate (width - digits.length) '0' ++ digits)

/-- The two digits of each byte, in order. -/
def hexBytes (bytes : List UInt8) : String :=
  String.ofList (bytes.flatMap fun b => [hexDigit (b.toNat / 16), hexDigit (b.toNat % 16)])

/-- An offset in a method body, as listings and messages show it. -/
def offsetLabel (offset : UInt32) : String := "IL_" ++ hexPadded 4 offset.toNat

end Hotswap.Text
