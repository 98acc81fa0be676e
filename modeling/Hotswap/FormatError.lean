import Hotswap.FileFault
import Hotswap.Opcode.Table

/-!
# Errors of the patch format

What can be wrong with the text of a name, of an instruction, of a descriptor or of a manifest. Each
cause is a constructor, and `FormatError.message` is the only place that words it.

A document is read from left to right and the first fault is the one reported. The fault is either
one of the document as such (`malformedDocument`) or one of this library's own causes, met in a part
of the document (`refusedDocument`).
-/

namespace Hotswap

/-- A cause for refusing a piece of the patch format. -/
inductive FormatError where
  /-- The text is not a document, or not one of the expected shape. -/
  | malformedDocument
  /-- A part of the document is refused for a cause of its own. -/
  | refusedDocument (cause : FormatError)
  /-- The file at a path cannot be read. -/
  | unreadable (path : String) (fault : FileFault)
  /-- No opcode has the name. -/
  | unknownOpcodeName (name : String)
  /-- No opcode has the code. -/
  | unknownOpcodeCode (code : UInt16)
  /-- The operand does not suit the opcode. -/
  | invalidOperand (opcode : Opcode) (reason : String)
  /-- The operand type is not a known one. -/
  | unknownOperandType (name : String)
  /-- The text is not a reference to a method or a field. -/
  | invalidSignature (text reason : String)
  /-- The text is not a type name; the column counts bytes. -/
  | invalidTypeName (text : String) (column : Nat) (reason : String)
  /-- A generic placeholder has nothing to stand for. -/
  | unboundPlaceholder (token : String)
  /-- The content of a file does not have the digest it is filed under. -/
  | digestMismatch (key actual : String)
  deriving DecidableEq, Repr

/-- The wording of a cause. -/
def FormatError.message : FormatError → String
  | .malformedDocument => "JSON error: malformed document"
  | .refusedDocument cause => "JSON error: " ++ cause.message
  | .unreadable path fault => "I/O error: " ++ path ++ ": " ++ fault.message
  | .unknownOpcodeName name => "unknown opcode name '" ++ name ++ "'"
  | .unknownOpcodeCode code => "unknown opcode code " ++ toString code.toNat
  | .invalidOperand opcode reason => "Invalid operand for " ++ opcode.mnemonic ++ ": " ++ reason
  | .unknownOperandType name => "Unknown operand type '" ++ name ++ "'"
  | .invalidSignature text reason => "Invalid signature '" ++ text ++ "': " ++ reason
  | .invalidTypeName text column reason =>
    "Invalid type name '" ++ text ++ "' at column " ++ toString column ++ ": " ++ reason
  | .unboundPlaceholder token => "Placeholder " ++ token ++ " has no binding"
  | .digestMismatch key actual =>
    "Content key mismatch for '" ++ key ++ "': content hashes to " ++ actual

/-- The fault of a whole document, given the first fault met in it. -/
def FormatError.ofDocument : FormatError → FormatError
  | .malformedDocument => .malformedDocument
  | cause => .refusedDocument cause

end Hotswap
