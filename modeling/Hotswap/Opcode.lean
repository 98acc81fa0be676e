/-!
# Opcodes

The instruction set a patched method body is written in. This file names the opcodes, the kinds
of operand they carry and the control-flow properties a checker or an interpreter asks about. The
row of facts for each opcode is in `Hotswap.Opcode.Table`, and reading an opcode from a name or a
number is in `Hotswap.Opcode.Lookup`.

The constructors stand in the order of the numeric codes: the code of an opcode is its position in
this list.
-/

namespace Hotswap

/-- The shape of the operand an opcode takes. -/
inductive OperandKind where
  /-- No operand. -/
  | none
  /-- An integer literal. -/
  | int
  /-- A floating-point literal. -/
  | float
  /-- A string literal. -/
  | string
  /-- A method reference. -/
  | method
  /-- A type name. -/
  | type
  /-- A field reference. -/
  | field
  /-- A metadata token: the name of a type, a method or a field. -/
  | token
  /-- One branch target. -/
  | target
  /-- The branch targets of a multi-way branch. -/
  | targets
  /-- The number of an argument or of a local. -/
  | slot
  /-- The signature of an indirect call. -/
  | callSite
  deriving DecidableEq, Repr, Inhabited

/-- The name of an operand kind in listings, in messages and in the wire format. -/
def OperandKind.name : OperandKind → String
  | .none => "None"
  | .int => "Int"
  | .float => "Float"
  | .string => "String"
  | .method => "Method"
  | .type => "Type"
  | .field => "Field"
  | .token => "Token"
  | .target => "Instruction"
  | .targets => "Instructions"
  | .slot => "Variable"
  | .callSite => "Signature"

/-- A control-flow property of an opcode. -/
inductive ControlFlag where
  /-- The opcode carries one or more branch targets. -/
  | jump
  /-- The opcode falls through when its branch is not taken. -/
  | conditional
  /-- The opcode is a multi-way branch over a table of targets. -/
  | multiway
  /-- The opcode leaves the method. -/
  | returns
  /-- The opcode invokes a method. -/
  | calls
  /-- The opcode raises an exception. -/
  | throws
  /-- The opcode never falls through to the next instruction. -/
  | terminator
  deriving DecidableEq, Repr

/-- The flags in the order in which they are reported. -/
def ControlFlag.all : List ControlFlag :=
  [.jump, .conditional, .multiway, .returns, .calls, .throws, .terminator]

/-- The name of a flag in reports. -/
def ControlFlag.name : ControlFlag → String
  | .jump => "jump"
  | .conditional => "conditional"
  | .multiway => "switch"
  | .returns => "return"
  | .calls => "call"
  | .throws => "throw"
  | .terminator => "terminator"

/-- An opcode of the instruction set, in the order of the numeric codes. -/
inductive Opcode where
  | nop
  | breakpoint
  | ldarg0
  | ldarg1
  | ldarg2
  | ldarg3
  | ldloc0
  | ldloc1
  | ldloc2
  | ldloc3
  | stloc0
  | stloc1
  | stloc2
  | stloc3
  | ldargS
  | ldargaS
  | stargS
  | ldlocS
  | ldlocaS
  | stlocS
  | ldnull
  | ldcI4M1
  | ldcI40
  | ldcI41
  | ldcI42
  | ldcI43
  | ldcI44
  | ldcI45
  | ldcI46
  | ldcI47
  | ldcI48
  | ldcI4S
  | ldcI4
  | ldcI8
  | ldcR4
  | ldcR8
  | dup
  | pop
  | jmp
  | call
  | calli
  | ret
  | brS
  | brfalseS
  | brtrueS
  | beqS
  | bgeS
  | bgtS
  | bleS
  | bltS
  | bneUnS
  | bgeUnS
  | bgtUnS
  | bleUnS
  | bltUnS
  | br
  | brfalse
  | brtrue
  | beq
  | bge
  | bgt
  | ble
  | blt
  | bneUn
  | bgeUn
  | bgtUn
  | bleUn
  | bltUn
  | switch
  | ldindI1
  | ldindU1
  | ldindI2
  | ldindU2
  | ldindI4
  | ldindU4
  | ldindI8
  | ldindI
  | ldindR4
  | ldindR8
  | ldindRef
  | stindRef
  | stindI1
  | stindI2
  | stindI4
  | stindI8
  | stindR4
  | stindR8
  | add
  | sub
  | mul
  | div
  | divUn
  | rem
  | remUn
  | and
  | or
  | xor
  | shl
  | shr
  | shrUn
  | neg
  | not
  | convI1
  | convI2
  | convI4
  | convI8
  | convR4
  | convR8
  | convU4
  | convU8
  | callvirt
  | cpobj
  | ldobj
  | ldstr
  | newobj
  | castclass
  | isinst
  | convRUn
  | unbox
  | throw
  | ldfld
  | ldflda
  | stfld
  | ldsfld
  | ldsflda
  | stsfld
  | stobj
  | convOvfI1Un
  | convOvfI2Un
  | convOvfI4Un
  | convOvfI8Un
  | convOvfU1Un
  | convOvfU2Un
  | convOvfU4Un
  | convOvfU8Un
  | convOvfIUn
  | convOvfUUn
  | box
  | newarr
  | ldlen
  | ldelema
  | ldelemI1
  | ldelemU1
  | ldelemI2
  | ldelemU2
  | ldelemI4
  | ldelemU4
  | ldelemI8
  | ldelemI
  | ldelemR4
  | ldelemR8
  | ldelemRef
  | stelemI
  | stelemI1
  | stelemI2
  | stelemI4
  | stelemI8
  | stelemR4
  | stelemR8
  | stelemRef
  | ldelem
  | stelem
  | unboxAny
  | convOvfI1
  | convOvfU1
  | convOvfI2
  | convOvfU2
  | convOvfI4
  | convOvfU4
  | convOvfI8
  | convOvfU8
  | refanyval
  | ckfinite
  | mkrefany
  | ldtoken
  | convU2
  | convU1
  | convI
  | convOvfI
  | convOvfU
  | addOvf
  | addOvfUn
  | mulOvf
  | mulOvfUn
  | subOvf
  | subOvfUn
  | endfinally
  | leave
  | leaveS
  | stindI
  | convU
  | arglist
  | ceq
  | cgt
  | cgtUn
  | clt
  | cltUn
  | ldftn
  | ldvirtftn
  | ldarg
  | ldarga
  | starg
  | ldloc
  | ldloca
  | stloc
  | localloc
  | endfilter
  | unaligned
  | volatile
  | tail
  | initobj
  | constrained
  | cpblk
  | initblk
  | no
  | rethrow
  | sizeof
  | refanytype
  | readonly
  deriving DecidableEq, Repr, Inhabited

end Hotswap
