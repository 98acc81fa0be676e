import Hotswap.FormatError
import Hotswap.Instruction

/-!
# Errors of a run

What can go wrong while patches are loaded and methods run. As with `FormatError`, each cause is a
constructor and the wording is in one place.
-/

namespace Hotswap

/-- Why a descriptor cannot be run as it is. -/
inductive Malformation where
  /-- The body has no instructions. -/
  | emptyBody
  /-- There is no instruction where control is. -/
  | noInstruction
  /-- Nothing follows an instruction that control passes through. -/
  | fallsOffEnd
  /-- The next offset is not that of an instruction. -/
  | danglingNext (offset : UInt32)
  /-- A branch target is not the offset of an instruction. -/
  | danglingTarget (offset : UInt32)
  /-- The operand is not of the kind that the opcode takes. -/
  | operandMismatch (opcode : Opcode) (found : OperandKind)
  /-- The method is called with another number of arguments than it has. -/
  | argumentCount (expected got : Nat)
  /-- There is no such argument. -/
  | noArgument (slot count : Nat)
  /-- There is no such local. -/
  | noLocal (slot count : Nat)
  /-- The number of an argument or of a local is negative. -/
  | negativeSlot (slot : Int64)
  /-- An integer literal is too large for 32 bits. -/
  | literalTooLarge (n : Int64)
  /-- A delegate is constructed from something that is not a function. -/
  | notAFunction (found : String)
  deriving DecidableEq, Repr

/-- The wording of a malformation. -/
def Malformation.message : Malformation → String
  | .emptyBody => "method body is empty"
  | .noInstruction => "no instruction at this offset"
  | .fallsOffEnd => "falls off the end of the method"
  | .danglingNext offset => "next offset " ++ Text.offsetLabel offset ++ " is not an instruction"
  | .danglingTarget offset =>
    "branch target " ++ Text.offsetLabel offset ++ " is not an instruction"
  | .operandMismatch opcode found =>
    opcode.mnemonic ++ " takes a " ++ opcode.operandKind.name ++ " operand, found " ++ found.name
  | .argumentCount expected got =>
    "expected " ++ toString expected ++ " arguments, got " ++ toString got
  | .noArgument slot count =>
    "argument " ++ toString slot ++ " out of range (" ++ toString count ++ " arguments)"
  | .noLocal slot count =>
    "local " ++ toString slot ++ " out of range (" ++ toString count ++ " locals)"
  | .negativeSlot slot => "slot " ++ toString slot.toInt ++ " is negative"
  | .literalTooLarge n => toString n.toInt ++ " does not fit in 32 bits"
  | .notAFunction found => "delegate construction expects a function, found " ++ found

/-- Why a catalogue cannot be loaded or published. -/
inductive LoadFault where
  /-- The source has no file of the name. -/
  | noSuchFile (name : String)
  /-- The file at a path cannot be read or written. -/
  | unreadable (path : String) (fault : FileFault)
  /-- The name is not that of a file right under the root. -/
  | notAFileName (name root : String)
  /-- A file does not hold what it should. -/
  | badFile (file : String) (cause : FormatError)
  /-- The manifest lists a method without a content key. -/
  | emptyKey (manifest signature : String)
  /-- The manifest lists a content key that is not a plain name. -/
  | badKey (manifest signature key : String)
  /-- The descriptor is for another method than the one listed. -/
  | otherMethod (file found listed : String)
  deriving DecidableEq, Repr

/-- The wording of a fault. -/
def LoadFault.message : LoadFault → String
  | .noSuchFile name => name ++ ": no such file"
  | .unreadable path fault => path ++ ": " ++ fault.message
  | .notAFileName name root => "'" ++ name ++ "' is not a file name under " ++ root
  | .badFile file cause => file ++ ": " ++ cause.message
  | .emptyKey manifest signature => manifest ++ ": " ++ signature ++ ": empty content key"
  | .badKey manifest signature key =>
    manifest ++ ": " ++ signature ++ ": content key '" ++ key ++ "' is not a plain file name"
  | .otherMethod file found listed =>
    file ++ ": descriptor is for " ++ found ++ " but the manifest lists " ++ listed

/-- What goes wrong in a run. -/
inductive Error where
  /-- A type, a method or a field is not known. -/
  | resolution (symbol : String)
  /-- An operator does not take the values. -/
  | typeMismatch (operator left right : String)
  /-- A division by zero. -/
  | divideByZero
  /-- A result that does not fit. -/
  | overflow (operator : String)
  /-- An opcode that cannot be run. -/
  | unrecognizedOpcode (opcode : Opcode) (offset : UInt32)
  /-- A call site without a descriptor. -/
  | missingDescriptor (signature : String)
  /-- A descriptor that cannot be run as it is. -/
  | malformedDescriptor (method : String) (offset : UInt32) (reason : Malformation)
  /-- An instruction that finds too few operands. -/
  | stackUnderflow (method : String) (offset : UInt32)
  /-- A value of another type than the one asked for. -/
  | invalidCast (source target : String)
  /-- A use of null. -/
  | nullReference (operation : String)
  /-- An index that an array does not have. -/
  | indexOutOfRange (index : Int64) (length : Nat)
  /-- A failure of a host method. -/
  | native (message : String)
  /-- An exception that nothing handles. -/
  | thrown (exception : String)
  /-- A fault of loading. -/
  | load (fault : LoadFault)
  /-- Two methods with one signature. -/
  | duplicateSignature (signature : String)
  /-- A fault in a piece of the patch format. -/
  | format (cause : FormatError)
  deriving DecidableEq, Repr

/-- The wording of an error. -/
def Error.message : Error → String
  | .resolution symbol => "Unresolved symbol '" ++ symbol ++ "'"
  | .typeMismatch operator left right =>
    "Operator '" ++ operator ++ "' is not defined between " ++ left ++ " and " ++ right
  | .divideByZero => "Division by zero"
  | .overflow operator => "Arithmetic overflow in '" ++ operator ++ "'"
  | .unrecognizedOpcode opcode offset =>
    "Unrecognized opcode " ++ opcode.mnemonic ++ " at " ++ Text.offsetLabel offset
  | .missingDescriptor signature =>
    "Method '" ++ signature ++ "' is marked patched but has no descriptor"
  | .malformedDescriptor method offset reason =>
    "Malformed descriptor '" ++ method ++ "' at " ++ Text.offsetLabel offset ++ ": " ++
      reason.message
  | .stackUnderflow method offset =>
    "Stack underflow in '" ++ method ++ "' at " ++ Text.offsetLabel offset
  | .invalidCast source target => "Cannot cast " ++ source ++ " to " ++ target
  | .nullReference operation => "Null reference in '" ++ operation ++ "'"
  | .indexOutOfRange index length =>
    "Index " ++ toString index.toInt ++ " is out of range for length " ++ toString length
  | .native message => "Native call failed: " ++ message
  | .thrown exception => "Unhandled exception: " ++ exception
  | .load fault => "Catalogue load failed: " ++ fault.message
  | .duplicateSignature signature => "Duplicate signature '" ++ signature ++ "'"
  | .format cause => cause.message

end Hotswap
