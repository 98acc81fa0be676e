import Hotswap.Decimal.Reader
import Hotswap.Value

/-!
# Literals of the command line

How a word stands for a value. Integers have 32 bits if they fit and 64 otherwise, floating-point
numbers have 64 bits, or 32 with an `f` at the end, and what is none of these is a string.
-/

namespace Hotswap

/-- The word without a letter at its end. -/
def dropFinal? (letter : Char) (word : String) : Option String :=
  if word.toList.getLast? = some letter then some (String.ofList word.toList.dropLast) else none

/-- The number that a word stands for. -/
def numberLiteral? (word : String) : Option Value :=
  match Decimal.readInt64? word with
  | some n => some (if n.toInt32.toInt64 = n then .int32 n.toInt32 else .int64 n)
  | none =>
    ((dropFinal? 'f' word).bind Decimal.readFloat32?).map Value.float32
      |>.or (((dropFinal? 'd' word).bind Decimal.readFloat?).map Value.float64)
      |>.or ((Decimal.readFloat? word).map Value.float64)

/-- The value that a word stands for. -/
def Value.ofLiteral (word : String) : Value :=
  match word with
  | "null" => .null
  | "true" => .bool true
  | "false" => .bool false
  | _ => (numberLiteral? word).getD (.string word)

end Hotswap
