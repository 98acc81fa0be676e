import Hotswap.Command.Report

/-!
# The command line

Runs a command on the files of the system and prints its report.
-/

namespace Hotswap

/-- The fault of a number that a system reports. Some systems report its opposite. -/
def faultOfCode (code : UInt32) (details : String) : FileFault :=
  match if code < 0x80000000 then code else -code with
  | 2 => .missing
  | 20 => .notADirectory
  | 21 => .isDirectory
  | 36 => .nameTooLong
  | code => .other code details

/-- The fault that an error of the system tells of. -/
def faultOf : IO.Error → FileFault
  | .noFileOrDirectory _ code details | .inappropriateType _ code details
  | .invalidArgument _ code details | .permissionDenied _ code details
  | .otherError code details => faultOfCode code details
  | e => .other 5 (toString e)

/-- The files of the system. -/
def systemFiles : FileAccess IO where
  read path := do
    try
      return .ok (← IO.FS.readBinFile path)
    catch e =>
      return .error (faultOf e)
  write path bytes := do
    try
      IO.FS.writeBinFile path bytes
      return .ok ()
    catch e =>
      return .error (faultOf e)

/-- How the commands are written. -/
def usage : String :=
  textOfLines
    ["usage: info DIR [--manifest NAME]",
      "       disasm FILE",
      "       verify DIR [--manifest NAME]",
      "       run DIR SIGNATURE [--this VALUE] [VALUE ...]"]

end Hotswap

open Hotswap in
/-- Carries the words of the command line out on the files of the system. -/
def main (words : List String) : IO UInt32 := do
  let report ← Command.respond systemFiles words
  IO.print report.output
  IO.eprint (if report = .misuse then usage else report.errors)
  return report.code.toUInt32
