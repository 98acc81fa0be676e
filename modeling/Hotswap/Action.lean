import Hotswap.Arithmetic.Conversion
import Hotswap.Comparison
import Hotswap.Opcode.Table

/-!
# Actions

Two hundred opcodes do some forty different things. `Opcode.action` sorts them: it says what an
opcode does once the short forms, the widths that values carry with them and the choice of an
arithmetic operation are out of the way. An action is an effect on values, after which control goes
to the instruction that follows, or a transfer of control. The machine is defined on actions.

Values carry their own tags and there are no managed pointers. So boxing does nothing, loading an
address loads what is there, and one action loads an item of an array of any type.
-/

namespace Hotswap

/-- What an instruction does to the values it finds, before control goes to the one that follows. -/
inductive Effect where
  /-- Nothing. -/
  | skip
  /-- Pushes an argument; without a number, the one that the operand names. -/
  | loadArg (slot : Option Nat)
  /-- Pops a value into the argument that the operand names. -/
  | storeArg
  /-- Pushes a local; without a number, the one that the operand names. -/
  | loadLocal (slot : Option Nat)
  /-- Pops a value into a local; without a number, the one that the operand names. -/
  | storeLocal (slot : Option Nat)
  /-- Pushes a fixed value. -/
  | push (v : Value)
  /-- Pushes the integer in the operand, with 32 bits. -/
  | pushInt32
  /-- Pushes the integer in the operand, with 64 bits. -/
  | pushInt64
  /-- Pushes the number in the operand as a floating-point number of 32 bits. -/
  | pushFloat32
  /-- Pushes the number in the operand as a floating-point number of 64 bits. -/
  | pushFloat64
  /-- Pushes the string in the operand. -/
  | pushString
  /-- Pushes the top once more. -/
  | dup
  /-- Drops the top. -/
  | pop
  /-- Calls a method, or a delegate if the method is its `Invoke`. -/
  | call
  /-- Makes an object and runs its constructor, or makes a delegate of a function. -/
  | newObject
  /-- Pushes a function. -/
  | loadFunction (virtual : Bool)
  /-- Pops two values and pushes whether the test holds of them. -/
  | compare (test : Value → Value → Except Error Bool)
  /-- Pops two values and pushes what the operation makes of them. -/
  | binary (operation : Value → Value → Except Error Value)
  /-- Pops a value and pushes what the operation makes of it. -/
  | unary (operation : Value → Except Error Value)
  /-- Converts the top to a type, or fails. -/
  | cast
  /-- Replaces the top by null unless it has a type. -/
  | isInstance
  /-- Replaces the top by a field of it. -/
  | loadField
  /-- Pops a value and a target and stores the value in a field of the target. -/
  | storeField
  /-- Pushes a static field. -/
  | loadStatic
  /-- Pops a value into a static field. -/
  | storeStatic
  /-- Pops a length and pushes a new array. -/
  | newArray
  /-- Replaces an array by its length. -/
  | arrayLength
  /-- Pops an index and an array and pushes the item there. -/
  | loadItem
  /-- Pops a value, an index and an array and stores the value there. -/
  | storeItem
  /-- Pushes the handle of the type in the operand. -/
  | loadToken
  /-- Pops an exception and stops. -/
  | throw
  /-- Stops: there is no exception to throw once more. -/
  | rethrow
  /-- Stops: the machine does not run the opcode. -/
  | unsupported

/-- Where an instruction sends control. -/
inductive Transfer where
  /-- Leaves the method. -/
  | ret
  /-- Goes to the target. -/
  | jump
  /-- Pops a value and goes to the target if the test holds of it. -/
  | branchIf (test : Value → Except Error Bool)
  /-- Pops two values and goes to the target if the test holds of them. -/
  | branchOn (test : Value → Value → Except Error Bool)
  /-- Pops a position and goes to the target there, if there is one. -/
  | multiway

/-- What an instruction does. -/
inductive Action where
  /-- It works on values. -/
  | effect (e : Effect)
  /-- It sends control elsewhere. -/
  | transfer (t : Transfer)

/-- Whether a branch on false is taken. Floating-point numbers and strings are refused. -/
def branchFalse (v : Value) : Except Error Bool :=
  match v with
  | .float32 _ | .float64 _ | .string _ =>
    .error (.typeMismatch "brfalse" v.typeName "System.Boolean")
  | _ => .ok v.isFalsy

/-- Whether a branch on true is taken. -/
def branchTrue (v : Value) : Except Error Bool := .ok (!v.isFalsy)

/-- Whether two values count as different. -/
def different (a b : Value) : Except Error Bool := (same a b).map (! ·)

/-- A number that is finite; any other value passes. -/
def checkFinite (v : Value) : Except Error Value :=
  match v.toFloat? with
  | some x => if Floating.isFinite x then .ok v else .error (.overflow "ckfinite")
  | none => .ok v

/-- What an opcode does. -/
def Opcode.action : Opcode → Action
  | .nop | .breakpoint | .unaligned | .volatile | .tail | .constrained | .no | .readonly =>
    .effect .skip
  | .box | .unbox | .unboxAny => .effect .skip
  | .ldarg0 => .effect (.loadArg (some 0))
  | .ldarg1 => .effect (.loadArg (some 1))
  | .ldarg2 => .effect (.loadArg (some 2))
  | .ldarg3 => .effect (.loadArg (some 3))
  | .ldargS | .ldarg | .ldargaS | .ldarga => .effect (.loadArg none)
  | .stargS | .starg => .effect .storeArg
  | .ldloc0 => .effect (.loadLocal (some 0))
  | .ldloc1 => .effect (.loadLocal (some 1))
  | .ldloc2 => .effect (.loadLocal (some 2))
  | .ldloc3 => .effect (.loadLocal (some 3))
  | .ldlocS | .ldloc | .ldlocaS | .ldloca => .effect (.loadLocal none)
  | .stloc0 => .effect (.storeLocal (some 0))
  | .stloc1 => .effect (.storeLocal (some 1))
  | .stloc2 => .effect (.storeLocal (some 2))
  | .stloc3 => .effect (.storeLocal (some 3))
  | .stlocS | .stloc => .effect (.storeLocal none)
  | .ldnull => .effect (.push .null)
  | .ldcI4M1 => .effect (.push (.int32 (-1)))
  | .ldcI40 => .effect (.push (.int32 0))
  | .ldcI41 => .effect (.push (.int32 1))
  | .ldcI42 => .effect (.push (.int32 2))
  | .ldcI43 => .effect (.push (.int32 3))
  | .ldcI44 => .effect (.push (.int32 4))
  | .ldcI45 => .effect (.push (.int32 5))
  | .ldcI46 => .effect (.push (.int32 6))
  | .ldcI47 => .effect (.push (.int32 7))
  | .ldcI48 => .effect (.push (.int32 8))
  | .ldcI4S | .ldcI4 => .effect .pushInt32
  | .ldcI8 => .effect .pushInt64
  | .ldcR4 => .effect .pushFloat32
  | .ldcR8 => .effect .pushFloat64
  | .ldstr => .effect .pushString
  | .dup => .effect .dup
  | .pop => .effect .pop
  | .call | .callvirt => .effect .call
  | .newobj => .effect .newObject
  | .ldftn => .effect (.loadFunction false)
  | .ldvirtftn => .effect (.loadFunction true)
  | .ret => .transfer .ret
  | .br | .brS | .leave | .leaveS => .transfer .jump
  | .brfalse | .brfalseS => .transfer (.branchIf branchFalse)
  | .brtrue | .brtrueS => .transfer (.branchIf branchTrue)
  | .beq | .beqS => .transfer (.branchOn same)
  | .bneUn | .bneUnS => .transfer (.branchOn different)
  | .bge | .bgeS => .transfer (.branchOn (related .atLeast false))
  | .bgt | .bgtS => .transfer (.branchOn (related .greater false))
  | .ble | .bleS => .transfer (.branchOn (related .atMost false))
  | .blt | .bltS => .transfer (.branchOn (related .less false))
  | .bgeUn | .bgeUnS => .transfer (.branchOn (related .atLeast true))
  | .bgtUn | .bgtUnS => .transfer (.branchOn (related .greater true))
  | .bleUn | .bleUnS => .transfer (.branchOn (related .atMost true))
  | .bltUn | .bltUnS => .transfer (.branchOn (related .less true))
  | .switch => .transfer .multiway
  | .ceq => .effect (.compare same)
  | .cgt => .effect (.compare (related .greater false))
  | .cgtUn => .effect (.compare greaterOrUnordered)
  | .clt => .effect (.compare (related .less false))
  | .cltUn => .effect (.compare (related .less true))
  | .add => .effect (.binary Hotswap.add)
  | .sub => .effect (.binary (arith .sub))
  | .mul => .effect (.binary (arith .mul))
  | .div => .effect (.binary (arith .div))
  | .rem => .effect (.binary (arith .rem))
  | .divUn => .effect (.binary (divideUnsigned .div))
  | .remUn => .effect (.binary (divideUnsigned .rem))
  | .and => .effect (.binary (bitwise .and))
  | .or => .effect (.binary (bitwise .or))
  | .xor => .effect (.binary (bitwise .xor))
  | .shl => .effect (.binary (bitwise .shl))
  | .shr => .effect (.binary (bitwise .shr))
  | .shrUn => .effect (.binary (bitwise .shrUn))
  | .addOvf => .effect (.binary (checked .add false))
  | .addOvfUn => .effect (.binary (checked .add true))
  | .subOvf => .effect (.binary (checked .sub false))
  | .subOvfUn => .effect (.binary (checked .sub true))
  | .mulOvf => .effect (.binary (checked .mul false))
  | .mulOvfUn => .effect (.binary (checked .mul true))
  | .neg => .effect (.unary negate)
  | .not => .effect (.unary complement)
  | .convI1 => .effect (.unary (convert .i1))
  | .convI2 => .effect (.unary (convert .i2))
  | .convI4 => .effect (.unary (convert .i4))
  | .convI8 => .effect (.unary (convert .i8))
  | .convU1 => .effect (.unary (convert .u1))
  | .convU2 => .effect (.unary (convert .u2))
  | .convU4 => .effect (.unary (convert .u4))
  | .convU8 => .effect (.unary (convert .u8))
  | .convI => .effect (.unary (convert .i))
  | .convU => .effect (.unary (convert .u))
  | .convR4 => .effect (.unary (convert .r4))
  | .convR8 => .effect (.unary (convert .r8))
  | .convRUn => .effect (.unary (convert .rUn))
  | .convOvfI1 => .effect (.unary (convertChecked .i1 false))
  | .convOvfI2 => .effect (.unary (convertChecked .i2 false))
  | .convOvfI4 => .effect (.unary (convertChecked .i4 false))
  | .convOvfI8 => .effect (.unary (convertChecked .i8 false))
  | .convOvfU1 => .effect (.unary (convertChecked .u1 false))
  | .convOvfU2 => .effect (.unary (convertChecked .u2 false))
  | .convOvfU4 => .effect (.unary (convertChecked .u4 false))
  | .convOvfU8 => .effect (.unary (convertChecked .u8 false))
  | .convOvfI => .effect (.unary (convertChecked .i false))
  | .convOvfU => .effect (.unary (convertChecked .u false))
  | .convOvfI1Un => .effect (.unary (convertChecked .i1 true))
  | .convOvfI2Un => .effect (.unary (convertChecked .i2 true))
  | .convOvfI4Un => .effect (.unary (convertChecked .i4 true))
  | .convOvfI8Un => .effect (.unary (convertChecked .i8 true))
  | .convOvfU1Un => .effect (.unary (convertChecked .u1 true))
  | .convOvfU2Un => .effect (.unary (convertChecked .u2 true))
  | .convOvfU4Un => .effect (.unary (convertChecked .u4 true))
  | .convOvfU8Un => .effect (.unary (convertChecked .u8 true))
  | .convOvfIUn => .effect (.unary (convertChecked .i true))
  | .convOvfUUn => .effect (.unary (convertChecked .u true))
  | .ckfinite => .effect (.unary checkFinite)
  | .castclass => .effect .cast
  | .isinst => .effect .isInstance
  | .ldfld | .ldflda => .effect .loadField
  | .stfld => .effect .storeField
  | .ldsfld | .ldsflda => .effect .loadStatic
  | .stsfld => .effect .storeStatic
  | .newarr => .effect .newArray
  | .ldlen => .effect .arrayLength
  | .ldelema | .ldelem | .ldelemI1 | .ldelemU1 | .ldelemI2 | .ldelemU2 | .ldelemI4 |
      .ldelemU4 | .ldelemI8 | .ldelemI | .ldelemR4 | .ldelemR8 | .ldelemRef =>
    .effect .loadItem
  | .stelem | .stelemI | .stelemI1 | .stelemI2 | .stelemI4 | .stelemI8 | .stelemR4 |
      .stelemR8 | .stelemRef =>
    .effect .storeItem
  | .ldtoken => .effect .loadToken
  | .throw => .effect .throw
  | .rethrow => .effect .rethrow
  | .jmp | .calli | .ldindI1 | .ldindU1 | .ldindI2 | .ldindU2 | .ldindI4 | .ldindU4 |
      .ldindI8 | .ldindI | .ldindR4 | .ldindR8 | .ldindRef | .stindRef | .stindI1 | .stindI2 |
      .stindI4 | .stindI8 | .stindR4 | .stindR8 | .stindI | .cpobj | .ldobj | .stobj |
      .refanyval | .mkrefany | .endfinally | .arglist | .localloc | .endfilter | .initobj |
      .cpblk | .initblk | .sizeof | .refanytype =>
    .effect .unsupported

end Hotswap
