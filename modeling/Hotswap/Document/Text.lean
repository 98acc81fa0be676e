import Hotswap.Text.Hex
import Hotswap.Text.Utf8

/-!
# Strings in documents

A string in a document is written between quotes with escapes. `encodeText` writes the shortest
escapes: a backslash before a quote or a backslash, a letter for the five controls that have one,
and four hexadecimal digits for the other controls. `decodeText` reads every escape, and refuses a
surrogate that is not half of a pair and a byte that is part of no character.
-/

namespace Hotswap.Document

/-- How one character is written inside a string. -/
def encodeChar (c : Char) : List Char :=
  if c = '"' then ['\\', '"']
  else if c = '\\' then ['\\', '\\']
  else if c = '\x08' then ['\\', 'b']
  else if c = '\x0c' then ['\\', 'f']
  else if c = '\n' then ['\\', 'n']
  else if c = '\r' then ['\\', 'r']
  else if c = '\t' then ['\\', 't']
  else if c.toNat < 0x20 then
    ['\\', 'u', '0', '0', Text.hexDigit (c.toNat / 16), Text.hexDigit (c.toNat % 16)]
  else [c]

/-- The characters between the quotes of a string. -/
def encodeText (cs : List Char) : List Char := cs.flatMap encodeChar

/-- The character that a letter stands for after a backslash. -/
def shortEscape? (c : Char) : Option Char :=
  if c = '"' ∨ c = '\\' ∨ c = '/' then some c
  else if c = 'b' then some '\x08'
  else if c = 'f' then some '\x0c'
  else if c = 'n' then some '\n'
  else if c = 'r' then some '\r'
  else if c = 't' then some '\t'
  else none

/-- The number that four hexadecimal digits write. -/
def fourHex? (a b c d : Char) : Option Nat :=
  match Text.hexValue? a, Text.hexValue? b, Text.hexValue? c, Text.hexValue? d with
  | some a, some b, some c, some d => some (((a * 16 + b) * 16 + c) * 16 + d)
  | _, _, _, _ => none

/-- Whether a number is the first half of a surrogate pair. -/
def isHighSurrogate (n : Nat) : Bool := 0xd800 ≤ n && n < 0xdc00

/-- Whether a number is the second half of a surrogate pair. -/
def isLowSurrogate (n : Nat) : Bool := 0xdc00 ≤ n && n < 0xe000

/-- The character of a surrogate pair. -/
def pairChar (high low : Nat) : Char :=
  Char.ofNat (0x10000 + (high - 0xd800) * 0x400 + (low - 0xdc00))

/-- The text that the characters between the quotes of a string stand for. -/
def decodeText : List Char → Option (List Char)
  | [] => some []
  | '\\' :: 'u' :: a :: b :: c :: d :: rest =>
    match fourHex? a b c d with
    | none => none
    | some n =>
      if isLowSurrogate n then none
      else if isHighSurrogate n then
        match rest with
        | '\\' :: 'u' :: a :: b :: c :: d :: rest =>
          match fourHex? a b c d with
          | none => none
          | some m => if isLowSurrogate m then (decodeText rest).map (pairChar n m :: ·) else none
        | _ => none
      else (decodeText rest).map (Char.ofNat n :: ·)
  | '\\' :: e :: rest =>
    match shortEscape? e with
    | some c => (decodeText rest).map (c :: ·)
    | none => none
  | c :: rest =>
    if c = '\\' ∨ c = Text.strayByte then none else (decodeText rest).map (c :: ·)

/-- The string that is written between quotes. -/
def textOf? (raw : String) : Option String := (decodeText raw.toList).map String.ofList

end Hotswap.Document
