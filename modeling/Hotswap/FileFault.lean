/-!
# Faults of files

Why a file cannot be read or written, with the wording that a system gives to each cause and the
number it has there.
-/

namespace Hotswap

/-- Why a file cannot be read or written. -/
inductive FileFault where
  /-- There is nothing at the path. -/
  | missing
  /-- A part of the path is a file and not a directory. -/
  | notADirectory
  /-- There is a directory at the path. -/
  | isDirectory
  /-- A name in the path is too long. -/
  | nameTooLong
  /-- The path holds a character of code zero. -/
  | zeroCharacter
  /-- Any other cause. -/
  | other (code : UInt32) (details : String)
  deriving DecidableEq, Repr

/-- A wording with the number of its cause. -/
def FileFault.numbered (details : String) (code : Nat) : String :=
  details ++ " (os error " ++ toString code ++ ")"

/-- The wording of a fault. -/
def FileFault.message : FileFault → String
  | .missing => numbered "No such file or directory" 2
  | .notADirectory => numbered "Not a directory" 20
  | .isDirectory => numbered "Is a directory" 21
  | .nameTooLong => numbered "File name too long" 36
  | .zeroCharacter => "file name contained an unexpected NUL byte"
  | .other code details => numbered details code.toNat

end Hotswap
