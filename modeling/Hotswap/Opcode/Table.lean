import Hotswap.Opcode

/-!
# The opcode table

One row per opcode: its mnemonic, its encoding in a byte stream, the kind of operand it takes, its
control-flow flags and the other spellings under which it is known. `Opcode.all` lists the opcodes
by code, and `Opcode.all_getElem?_code` says that the list and the codes agree.
-/

namespace Hotswap.Opcode

/-- What is recorded of one opcode. -/
structure Row where
  /-- The dotted mnemonic, which some opcodes end with a dot. -/
  mnemonic : String
  /-- The encoding in a byte stream; two-byte opcodes start with `0xfe`. -/
  encoding : UInt16
  /-- The kind of operand the opcode takes. -/
  operand : OperandKind := .none
  /-- The control-flow flags, in the order of `ControlFlag.all`. -/
  flags : List ControlFlag := []
  /-- Further spellings accepted when an opcode is looked up by name. -/
  aliases : List String := []

/-- The row of an opcode. -/
def row : Opcode → Row
  | .nop => ⟨"nop", 0x00, .none, [], []⟩
  | .breakpoint => ⟨"break", 0x01, .none, [], []⟩
  | .ldarg0 => ⟨"ldarg.0", 0x02, .none, [], []⟩
  | .ldarg1 => ⟨"ldarg.1", 0x03, .none, [], []⟩
  | .ldarg2 => ⟨"ldarg.2", 0x04, .none, [], []⟩
  | .ldarg3 => ⟨"ldarg.3", 0x05, .none, [], []⟩
  | .ldloc0 => ⟨"ldloc.0", 0x06, .none, [], []⟩
  | .ldloc1 => ⟨"ldloc.1", 0x07, .none, [], []⟩
  | .ldloc2 => ⟨"ldloc.2", 0x08, .none, [], []⟩
  | .ldloc3 => ⟨"ldloc.3", 0x09, .none, [], []⟩
  | .stloc0 => ⟨"stloc.0", 0x0a, .none, [], []⟩
  | .stloc1 => ⟨"stloc.1", 0x0b, .none, [], []⟩
  | .stloc2 => ⟨"stloc.2", 0x0c, .none, [], []⟩
  | .stloc3 => ⟨"stloc.3", 0x0d, .none, [], []⟩
  | .ldargS => ⟨"ldarg.s", 0x0e, .slot, [], []⟩
  | .ldargaS => ⟨"ldarga.s", 0x0f, .slot, [], []⟩
  | .stargS => ⟨"starg.s", 0x10, .slot, [], []⟩
  | .ldlocS => ⟨"ldloc.s", 0x11, .slot, [], []⟩
  | .ldlocaS => ⟨"ldloca.s", 0x12, .slot, [], []⟩
  | .stlocS => ⟨"stloc.s", 0x13, .slot, [], []⟩
  | .ldnull => ⟨"ldnull", 0x14, .none, [], []⟩
  | .ldcI4M1 => ⟨"ldc.i4.m1", 0x15, .none, [], []⟩
  | .ldcI40 => ⟨"ldc.i4.0", 0x16, .none, [], []⟩
  | .ldcI41 => ⟨"ldc.i4.1", 0x17, .none, [], []⟩
  | .ldcI42 => ⟨"ldc.i4.2", 0x18, .none, [], []⟩
  | .ldcI43 => ⟨"ldc.i4.3", 0x19, .none, [], []⟩
  | .ldcI44 => ⟨"ldc.i4.4", 0x1a, .none, [], []⟩
  | .ldcI45 => ⟨"ldc.i4.5", 0x1b, .none, [], []⟩
  | .ldcI46 => ⟨"ldc.i4.6", 0x1c, .none, [], []⟩
  | .ldcI47 => ⟨"ldc.i4.7", 0x1d, .none, [], []⟩
  | .ldcI48 => ⟨"ldc.i4.8", 0x1e, .none, [], []⟩
  | .ldcI4S => ⟨"ldc.i4.s", 0x1f, .int, [], []⟩
  | .ldcI4 => ⟨"ldc.i4", 0x20, .int, [], []⟩
  | .ldcI8 => ⟨"ldc.i8", 0x21, .int, [], []⟩
  | .ldcR4 => ⟨"ldc.r4", 0x22, .float, [], []⟩
  | .ldcR8 => ⟨"ldc.r8", 0x23, .float, [], []⟩
  | .dup => ⟨"dup", 0x25, .none, [], []⟩
  | .pop => ⟨"pop", 0x26, .none, [], []⟩
  | .jmp => ⟨"jmp", 0x27, .method, [.calls, .terminator], []⟩
  | .call => ⟨"call", 0x28, .method, [.calls], []⟩
  | .calli => ⟨"calli", 0x29, .callSite, [.calls], []⟩
  | .ret => ⟨"ret", 0x2a, .none, [.returns, .terminator], []⟩
  | .brS => ⟨"br.s", 0x2b, .target, [.jump, .terminator], []⟩
  | .brfalseS => ⟨"brfalse.s", 0x2c, .target, [.jump, .conditional], []⟩
  | .brtrueS => ⟨"brtrue.s", 0x2d, .target, [.jump, .conditional], []⟩
  | .beqS => ⟨"beq.s", 0x2e, .target, [.jump, .conditional], []⟩
  | .bgeS => ⟨"bge.s", 0x2f, .target, [.jump, .conditional], []⟩
  | .bgtS => ⟨"bgt.s", 0x30, .target, [.jump, .conditional], []⟩
  | .bleS => ⟨"ble.s", 0x31, .target, [.jump, .conditional], []⟩
  | .bltS => ⟨"blt.s", 0x32, .target, [.jump, .conditional], []⟩
  | .bneUnS => ⟨"bne.un.s", 0x33, .target, [.jump, .conditional], []⟩
  | .bgeUnS => ⟨"bge.un.s", 0x34, .target, [.jump, .conditional], []⟩
  | .bgtUnS => ⟨"bgt.un.s", 0x35, .target, [.jump, .conditional], []⟩
  | .bleUnS => ⟨"ble.un.s", 0x36, .target, [.jump, .conditional], []⟩
  | .bltUnS => ⟨"blt.un.s", 0x37, .target, [.jump, .conditional], []⟩
  | .br => ⟨"br", 0x38, .target, [.jump, .terminator], []⟩
  | .brfalse => ⟨"brfalse", 0x39, .target, [.jump, .conditional], []⟩
  | .brtrue => ⟨"brtrue", 0x3a, .target, [.jump, .conditional], []⟩
  | .beq => ⟨"beq", 0x3b, .target, [.jump, .conditional], []⟩
  | .bge => ⟨"bge", 0x3c, .target, [.jump, .conditional], []⟩
  | .bgt => ⟨"bgt", 0x3d, .target, [.jump, .conditional], []⟩
  | .ble => ⟨"ble", 0x3e, .target, [.jump, .conditional], []⟩
  | .blt => ⟨"blt", 0x3f, .target, [.jump, .conditional], []⟩
  | .bneUn => ⟨"bne.un", 0x40, .target, [.jump, .conditional], []⟩
  | .bgeUn => ⟨"bge.un", 0x41, .target, [.jump, .conditional], []⟩
  | .bgtUn => ⟨"bgt.un", 0x42, .target, [.jump, .conditional], []⟩
  | .bleUn => ⟨"ble.un", 0x43, .target, [.jump, .conditional], []⟩
  | .bltUn => ⟨"blt.un", 0x44, .target, [.jump, .conditional], []⟩
  | .switch => ⟨"switch", 0x45, .targets, [.jump, .multiway], []⟩
  | .ldindI1 => ⟨"ldind.i1", 0x46, .none, [], []⟩
  | .ldindU1 => ⟨"ldind.u1", 0x47, .none, [], []⟩
  | .ldindI2 => ⟨"ldind.i2", 0x48, .none, [], []⟩
  | .ldindU2 => ⟨"ldind.u2", 0x49, .none, [], []⟩
  | .ldindI4 => ⟨"ldind.i4", 0x4a, .none, [], []⟩
  | .ldindU4 => ⟨"ldind.u4", 0x4b, .none, [], []⟩
  | .ldindI8 => ⟨"ldind.i8", 0x4c, .none, [], []⟩
  | .ldindI => ⟨"ldind.i", 0x4d, .none, [], []⟩
  | .ldindR4 => ⟨"ldind.r4", 0x4e, .none, [], []⟩
  | .ldindR8 => ⟨"ldind.r8", 0x4f, .none, [], []⟩
  | .ldindRef => ⟨"ldind.ref", 0x50, .none, [], []⟩
  | .stindRef => ⟨"stind.ref", 0x51, .none, [], []⟩
  | .stindI1 => ⟨"stind.i1", 0x52, .none, [], []⟩
  | .stindI2 => ⟨"stind.i2", 0x53, .none, [], []⟩
  | .stindI4 => ⟨"stind.i4", 0x54, .none, [], []⟩
  | .stindI8 => ⟨"stind.i8", 0x55, .none, [], []⟩
  | .stindR4 => ⟨"stind.r4", 0x56, .none, [], []⟩
  | .stindR8 => ⟨"stind.r8", 0x57, .none, [], []⟩
  | .add => ⟨"add", 0x58, .none, [], []⟩
  | .sub => ⟨"sub", 0x59, .none, [], []⟩
  | .mul => ⟨"mul", 0x5a, .none, [], []⟩
  | .div => ⟨"div", 0x5b, .none, [], []⟩
  | .divUn => ⟨"div.un", 0x5c, .none, [], []⟩
  | .rem => ⟨"rem", 0x5d, .none, [], []⟩
  | .remUn => ⟨"rem.un", 0x5e, .none, [], []⟩
  | .and => ⟨"and", 0x5f, .none, [], []⟩
  | .or => ⟨"or", 0x60, .none, [], []⟩
  | .xor => ⟨"xor", 0x61, .none, [], []⟩
  | .shl => ⟨"shl", 0x62, .none, [], []⟩
  | .shr => ⟨"shr", 0x63, .none, [], []⟩
  | .shrUn => ⟨"shr.un", 0x64, .none, [], []⟩
  | .neg => ⟨"neg", 0x65, .none, [], []⟩
  | .not => ⟨"not", 0x66, .none, [], []⟩
  | .convI1 => ⟨"conv.i1", 0x67, .none, [], []⟩
  | .convI2 => ⟨"conv.i2", 0x68, .none, [], []⟩
  | .convI4 => ⟨"conv.i4", 0x69, .none, [], []⟩
  | .convI8 => ⟨"conv.i8", 0x6a, .none, [], []⟩
  | .convR4 => ⟨"conv.r4", 0x6b, .none, [], []⟩
  | .convR8 => ⟨"conv.r8", 0x6c, .none, [], []⟩
  | .convU4 => ⟨"conv.u4", 0x6d, .none, [], []⟩
  | .convU8 => ⟨"conv.u8", 0x6e, .none, [], []⟩
  | .callvirt => ⟨"callvirt", 0x6f, .method, [.calls], []⟩
  | .cpobj => ⟨"cpobj", 0x70, .type, [], []⟩
  | .ldobj => ⟨"ldobj", 0x71, .type, [], []⟩
  | .ldstr => ⟨"ldstr", 0x72, .string, [], []⟩
  | .newobj => ⟨"newobj", 0x73, .method, [.calls], []⟩
  | .castclass => ⟨"castclass", 0x74, .type, [], []⟩
  | .isinst => ⟨"isinst", 0x75, .type, [], []⟩
  | .convRUn => ⟨"conv.r.un", 0x76, .none, [], []⟩
  | .unbox => ⟨"unbox", 0x79, .type, [], []⟩
  | .throw => ⟨"throw", 0x7a, .none, [.throws, .terminator], []⟩
  | .ldfld => ⟨"ldfld", 0x7b, .field, [], []⟩
  | .ldflda => ⟨"ldflda", 0x7c, .field, [], []⟩
  | .stfld => ⟨"stfld", 0x7d, .field, [], []⟩
  | .ldsfld => ⟨"ldsfld", 0x7e, .field, [], []⟩
  | .ldsflda => ⟨"ldsflda", 0x7f, .field, [], []⟩
  | .stsfld => ⟨"stsfld", 0x80, .field, [], []⟩
  | .stobj => ⟨"stobj", 0x81, .type, [], []⟩
  | .convOvfI1Un => ⟨"conv.ovf.i1.un", 0x82, .none, [], []⟩
  | .convOvfI2Un => ⟨"conv.ovf.i2.un", 0x83, .none, [], []⟩
  | .convOvfI4Un => ⟨"conv.ovf.i4.un", 0x84, .none, [], []⟩
  | .convOvfI8Un => ⟨"conv.ovf.i8.un", 0x85, .none, [], []⟩
  | .convOvfU1Un => ⟨"conv.ovf.u1.un", 0x86, .none, [], []⟩
  | .convOvfU2Un => ⟨"conv.ovf.u2.un", 0x87, .none, [], []⟩
  | .convOvfU4Un => ⟨"conv.ovf.u4.un", 0x88, .none, [], []⟩
  | .convOvfU8Un => ⟨"conv.ovf.u8.un", 0x89, .none, [], []⟩
  | .convOvfIUn => ⟨"conv.ovf.i.un", 0x8a, .none, [], []⟩
  | .convOvfUUn => ⟨"conv.ovf.u.un", 0x8b, .none, [], []⟩
  | .box => ⟨"box", 0x8c, .type, [], []⟩
  | .newarr => ⟨"newarr", 0x8d, .type, [], []⟩
  | .ldlen => ⟨"ldlen", 0x8e, .none, [], []⟩
  | .ldelema => ⟨"ldelema", 0x8f, .type, [], []⟩
  | .ldelemI1 => ⟨"ldelem.i1", 0x90, .none, [], []⟩
  | .ldelemU1 => ⟨"ldelem.u1", 0x91, .none, [], []⟩
  | .ldelemI2 => ⟨"ldelem.i2", 0x92, .none, [], []⟩
  | .ldelemU2 => ⟨"ldelem.u2", 0x93, .none, [], []⟩
  | .ldelemI4 => ⟨"ldelem.i4", 0x94, .none, [], []⟩
  | .ldelemU4 => ⟨"ldelem.u4", 0x95, .none, [], []⟩
  | .ldelemI8 => ⟨"ldelem.i8", 0x96, .none, [], []⟩
  | .ldelemI => ⟨"ldelem.i", 0x97, .none, [], []⟩
  | .ldelemR4 => ⟨"ldelem.r4", 0x98, .none, [], []⟩
  | .ldelemR8 => ⟨"ldelem.r8", 0x99, .none, [], []⟩
  | .ldelemRef => ⟨"ldelem.ref", 0x9a, .none, [], []⟩
  | .stelemI => ⟨"stelem.i", 0x9b, .none, [], []⟩
  | .stelemI1 => ⟨"stelem.i1", 0x9c, .none, [], []⟩
  | .stelemI2 => ⟨"stelem.i2", 0x9d, .none, [], []⟩
  | .stelemI4 => ⟨"stelem.i4", 0x9e, .none, [], []⟩
  | .stelemI8 => ⟨"stelem.i8", 0x9f, .none, [], []⟩
  | .stelemR4 => ⟨"stelem.r4", 0xa0, .none, [], []⟩
  | .stelemR8 => ⟨"stelem.r8", 0xa1, .none, [], []⟩
  | .stelemRef => ⟨"stelem.ref", 0xa2, .none, [], []⟩
  | .ldelem => ⟨"ldelem", 0xa3, .type, [], ["ldelem.any"]⟩
  | .stelem => ⟨"stelem", 0xa4, .type, [], ["stelem.any"]⟩
  | .unboxAny => ⟨"unbox.any", 0xa5, .type, [], []⟩
  | .convOvfI1 => ⟨"conv.ovf.i1", 0xb3, .none, [], []⟩
  | .convOvfU1 => ⟨"conv.ovf.u1", 0xb4, .none, [], []⟩
  | .convOvfI2 => ⟨"conv.ovf.i2", 0xb5, .none, [], []⟩
  | .convOvfU2 => ⟨"conv.ovf.u2", 0xb6, .none, [], []⟩
  | .convOvfI4 => ⟨"conv.ovf.i4", 0xb7, .none, [], []⟩
  | .convOvfU4 => ⟨"conv.ovf.u4", 0xb8, .none, [], []⟩
  | .convOvfI8 => ⟨"conv.ovf.i8", 0xb9, .none, [], []⟩
  | .convOvfU8 => ⟨"conv.ovf.u8", 0xba, .none, [], []⟩
  | .refanyval => ⟨"refanyval", 0xc2, .type, [], []⟩
  | .ckfinite => ⟨"ckfinite", 0xc3, .none, [], []⟩
  | .mkrefany => ⟨"mkrefany", 0xc6, .type, [], []⟩
  | .ldtoken => ⟨"ldtoken", 0xd0, .token, [], []⟩
  | .convU2 => ⟨"conv.u2", 0xd1, .none, [], []⟩
  | .convU1 => ⟨"conv.u1", 0xd2, .none, [], []⟩
  | .convI => ⟨"conv.i", 0xd3, .none, [], []⟩
  | .convOvfI => ⟨"conv.ovf.i", 0xd4, .none, [], []⟩
  | .convOvfU => ⟨"conv.ovf.u", 0xd5, .none, [], []⟩
  | .addOvf => ⟨"add.ovf", 0xd6, .none, [], []⟩
  | .addOvfUn => ⟨"add.ovf.un", 0xd7, .none, [], []⟩
  | .mulOvf => ⟨"mul.ovf", 0xd8, .none, [], []⟩
  | .mulOvfUn => ⟨"mul.ovf.un", 0xd9, .none, [], []⟩
  | .subOvf => ⟨"sub.ovf", 0xda, .none, [], []⟩
  | .subOvfUn => ⟨"sub.ovf.un", 0xdb, .none, [], []⟩
  | .endfinally => ⟨"endfinally", 0xdc, .none, [.terminator], ["endfault"]⟩
  | .leave => ⟨"leave", 0xdd, .target, [.jump, .terminator], []⟩
  | .leaveS => ⟨"leave.s", 0xde, .target, [.jump, .terminator], []⟩
  | .stindI => ⟨"stind.i", 0xdf, .none, [], []⟩
  | .convU => ⟨"conv.u", 0xe0, .none, [], []⟩
  | .arglist => ⟨"arglist", 0xfe00, .none, [], []⟩
  | .ceq => ⟨"ceq", 0xfe01, .none, [], []⟩
  | .cgt => ⟨"cgt", 0xfe02, .none, [], []⟩
  | .cgtUn => ⟨"cgt.un", 0xfe03, .none, [], []⟩
  | .clt => ⟨"clt", 0xfe04, .none, [], []⟩
  | .cltUn => ⟨"clt.un", 0xfe05, .none, [], []⟩
  | .ldftn => ⟨"ldftn", 0xfe06, .method, [], []⟩
  | .ldvirtftn => ⟨"ldvirtftn", 0xfe07, .method, [], []⟩
  | .ldarg => ⟨"ldarg", 0xfe09, .slot, [], []⟩
  | .ldarga => ⟨"ldarga", 0xfe0a, .slot, [], []⟩
  | .starg => ⟨"starg", 0xfe0b, .slot, [], []⟩
  | .ldloc => ⟨"ldloc", 0xfe0c, .slot, [], []⟩
  | .ldloca => ⟨"ldloca", 0xfe0d, .slot, [], []⟩
  | .stloc => ⟨"stloc", 0xfe0e, .slot, [], []⟩
  | .localloc => ⟨"localloc", 0xfe0f, .none, [], []⟩
  | .endfilter => ⟨"endfilter", 0xfe11, .none, [.terminator], []⟩
  | .unaligned => ⟨"unaligned.", 0xfe12, .int, [], []⟩
  | .volatile => ⟨"volatile.", 0xfe13, .none, [], []⟩
  | .tail => ⟨"tail.", 0xfe14, .none, [], []⟩
  | .initobj => ⟨"initobj", 0xfe15, .type, [], []⟩
  | .constrained => ⟨"constrained.", 0xfe16, .type, [], []⟩
  | .cpblk => ⟨"cpblk", 0xfe17, .none, [], []⟩
  | .initblk => ⟨"initblk", 0xfe18, .none, [], []⟩
  | .no => ⟨"no.", 0xfe19, .int, [], []⟩
  | .rethrow => ⟨"rethrow", 0xfe1a, .none, [.throws, .terminator], []⟩
  | .sizeof => ⟨"sizeof", 0xfe1c, .type, [], []⟩
  | .refanytype => ⟨"refanytype", 0xfe1d, .none, [], []⟩
  | .readonly => ⟨"readonly.", 0xfe1e, .none, [], []⟩

/-- The mnemonic of an opcode, which is also how listings and messages show it. -/
def mnemonic (op : Opcode) : String := op.row.mnemonic

/-- The encoding of an opcode in a byte stream. -/
def encoding (op : Opcode) : UInt16 := op.row.encoding

/-- The kind of operand an opcode takes. -/
def operandKind (op : Opcode) : OperandKind := op.row.operand

/-- The control-flow flags of an opcode. -/
def flags (op : Opcode) : List ControlFlag := op.row.flags

/-- Whether an opcode has a control-flow flag. -/
def has (op : Opcode) (flag : ControlFlag) : Bool := op.flags.contains flag

/-- Whether execution never falls through from an opcode to the next instruction. -/
def isTerminator (op : Opcode) : Bool := op.has .terminator

/-- Every opcode, by code. -/
def all : List Opcode := [
  .nop, .breakpoint, .ldarg0, .ldarg1, .ldarg2, .ldarg3, .ldloc0, .ldloc1, .ldloc2, .ldloc3,
  .stloc0, .stloc1, .stloc2, .stloc3, .ldargS, .ldargaS, .stargS, .ldlocS, .ldlocaS, .stlocS,
  .ldnull, .ldcI4M1, .ldcI40, .ldcI41, .ldcI42, .ldcI43, .ldcI44, .ldcI45, .ldcI46, .ldcI47,
  .ldcI48, .ldcI4S, .ldcI4, .ldcI8, .ldcR4, .ldcR8, .dup, .pop, .jmp, .call, .calli, .ret, .brS,
  .brfalseS, .brtrueS, .beqS, .bgeS, .bgtS, .bleS, .bltS, .bneUnS, .bgeUnS, .bgtUnS, .bleUnS,
  .bltUnS, .br, .brfalse, .brtrue, .beq, .bge, .bgt, .ble, .blt, .bneUn, .bgeUn, .bgtUn, .bleUn,
  .bltUn, .switch, .ldindI1, .ldindU1, .ldindI2, .ldindU2, .ldindI4, .ldindU4, .ldindI8, .ldindI,
  .ldindR4, .ldindR8, .ldindRef, .stindRef, .stindI1, .stindI2, .stindI4, .stindI8, .stindR4,
  .stindR8, .add, .sub, .mul, .div, .divUn, .rem, .remUn, .and, .or, .xor, .shl, .shr, .shrUn,
  .neg, .not, .convI1, .convI2, .convI4, .convI8, .convR4, .convR8, .convU4, .convU8, .callvirt,
  .cpobj, .ldobj, .ldstr, .newobj, .castclass, .isinst, .convRUn, .unbox, .throw, .ldfld,
  .ldflda, .stfld, .ldsfld, .ldsflda, .stsfld, .stobj, .convOvfI1Un, .convOvfI2Un, .convOvfI4Un,
  .convOvfI8Un, .convOvfU1Un, .convOvfU2Un, .convOvfU4Un, .convOvfU8Un, .convOvfIUn, .convOvfUUn,
  .box, .newarr, .ldlen, .ldelema, .ldelemI1, .ldelemU1, .ldelemI2, .ldelemU2, .ldelemI4,
  .ldelemU4, .ldelemI8, .ldelemI, .ldelemR4, .ldelemR8, .ldelemRef, .stelemI, .stelemI1,
  .stelemI2, .stelemI4, .stelemI8, .stelemR4, .stelemR8, .stelemRef, .ldelem, .stelem, .unboxAny,
  .convOvfI1, .convOvfU1, .convOvfI2, .convOvfU2, .convOvfI4, .convOvfU4, .convOvfI8, .convOvfU8,
  .refanyval, .ckfinite, .mkrefany, .ldtoken, .convU2, .convU1, .convI, .convOvfI, .convOvfU,
  .addOvf, .addOvfUn, .mulOvf, .mulOvfUn, .subOvf, .subOvfUn, .endfinally, .leave, .leaveS,
  .stindI, .convU, .arglist, .ceq, .cgt, .cgtUn, .clt, .cltUn, .ldftn, .ldvirtftn, .ldarg,
  .ldarga, .starg, .ldloc, .ldloca, .stloc, .localloc, .endfilter, .unaligned, .volatile, .tail,
  .initobj, .constrained, .cpblk, .initblk, .no, .rethrow, .sizeof, .refanytype, .readonly]

/-- The code of an opcode: its position in `Opcode.all`. -/
def code (op : Opcode) : Nat := op.ctorIdx

/-- The list of opcodes holds each opcode at its code. -/
theorem all_getElem?_code (op : Opcode) : all[op.code]? = some op := by
  cases op <;> rfl

end Hotswap.Opcode
