import Hotswap.Decimal.Shortest

/-!
# Writing floating-point numbers

A `FloatStyle` says how the shortest digits of a number are laid out: which numbers are written
positionally and which with an exponent, whether a whole number keeps a decimal, and what stands
for the numbers that have no digits. The library has two styles. `FloatStyle.plain` is the text of
a value, and `FloatStyle.document` the number in a document.
-/

namespace Hotswap.Decimal

/-- How a floating-point number is laid out. -/
structure FloatStyle where
  /-- Which of two equally near decimals is written. -/
  tie : Tie
  /-- Whether a number is written positionally, given the power of ten of its first digit. -/
  positional : Int → Bool
  /-- Whether a whole number is written with a decimal. -/
  keepsDecimal : Bool
  /-- The text of what is not a number. -/
  nan : String
  /-- The text of an infinity. -/
  infinity : Bool → String

/-- The text of a value: never an exponent and no decimal that is not needed. -/
def FloatStyle.plain : FloatStyle where
  tie := .up
  positional _ := true
  keepsDecimal := false
  nan := "NaN"
  infinity negative := if negative then "-inf" else "inf"

/-- The number in a document: positional with at least one decimal while the first digit lies
between the fifth decimal and the sixteenth whole place, with a signed exponent elsewhere, and
`null` for what has no digits. -/
def FloatStyle.document : FloatStyle where
  tie := .toEven
  positional e := -5 ≤ e && e ≤ 15
  keepsDecimal := true
  nan := "null"
  infinity _ := "null"

namespace FloatStyle

/-- A number of zeros. -/
def zeros (n : Nat) : List Char := List.replicate n '0'

/-- Digits written positionally. -/
def positionalChars (style : FloatStyle) (digits : List Char) (exponent : Int) : List Char :=
  let decimal := if style.keepsDecimal then ['.', '0'] else []
  if 0 ≤ exponent then digits ++ zeros exponent.toNat ++ decimal
  else
    let places := (-exponent).toNat
    if places < digits.length then
      digits.take (digits.length - places) ++ '.' :: digits.drop (digits.length - places)
    else '0' :: '.' :: zeros (places - digits.length) ++ digits

/-- Digits written with an exponent. -/
def exponentChars (digits : List Char) (first : Int) : List Char :=
  let mantissa := match digits with
    | [] => []
    | [d] => [d]
    | d :: rest => d :: '.' :: rest
  let sign := if first < 0 then '-' else '+'
  mantissa ++ 'e' :: sign :: Nat.toDigits 10 first.natAbs

/-- The characters of a number without its sign. -/
def magnitudeChars (style : FloatStyle) (d : Digits) : List Char :=
  let digits := Nat.toDigits 10 d.digits
  let first := d.exponent + (digits.length - 1 : Nat)
  if style.positional first then style.positionalChars digits d.exponent
  else exponentChars digits first

/-- The text of a number in a format, given by its bits. -/
def render (style : FloatStyle) (f : BinaryFormat) (bits : Nat) : String :=
  match f.parts bits with
  | .nan => style.nan
  | .infinite negative => style.infinity negative
  | .finite negative significand exponent =>
    let d : Digits := if significand = 0 then ⟨0, 0⟩ else shortest f style.tie significand exponent
    let body := style.magnitudeChars d
    String.ofList (if negative then '-' :: body else body)

/-- The text of a number of 64 bits. -/
def render64 (style : FloatStyle) (x : Float) : String := style.render .double x.toBits.toNat

/-- The text of a number of 32 bits. -/
def render32 (style : FloatStyle) (x : Float32) : String := style.render .single x.toBits.toNat

end FloatStyle

end Hotswap.Decimal
