import PushGuard.Opcode.Basic

/-!
# The opcode table

One row for each of the 219 opcodes of the Common Intermediate Language, in the order of their
encodings.  A row gives all that the readers and the analyses know of an opcode; none of them
looks at what the instruction computes.
-/

namespace PushGuard

/-- The opcodes, in the order of their encodings. -/
inductive Opcode
  | nop | breakpoint | ldarg0 | ldarg1 | ldarg2 | ldarg3 | ldloc0 | ldloc1 | ldloc2 | ldloc3
  | stloc0 | stloc1 | stloc2 | stloc3 | ldargS | ldargaS | stargS | ldlocS | ldlocaS | stlocS
  | ldnull | ldcI4M1 | ldcI4_0 | ldcI4_1 | ldcI4_2 | ldcI4_3 | ldcI4_4 | ldcI4_5 | ldcI4_6
  | ldcI4_7 | ldcI4_8 | ldcI4S | ldcI4 | ldcI8 | ldcR4 | ldcR8 | dup | pop | jmp | call | calli
  | ret | brS | brfalseS | brtrueS | beqS | bgeS | bgtS | bleS | bltS | bneUnS | bgeUnS | bgtUnS
  | bleUnS | bltUnS | br | brfalse | brtrue | beq | bge | bgt | ble | blt | bneUn | bgeUn | bgtUn
  | bleUn | bltUn | switch | ldindI1 | ldindU1 | ldindI2 | ldindU2 | ldindI4 | ldindU4 | ldindI8
  | ldindI | ldindR4 | ldindR8 | ldindRef | stindRef | stindI1 | stindI2 | stindI4 | stindI8
  | stindR4 | stindR8 | add | sub | mul | div | divUn | rem | remUn | and | or | xor | shl | shr
  | shrUn | neg | not | convI1 | convI2 | convI4 | convI8 | convR4 | convR8 | convU4 | convU8
  | callvirt | cpobj | ldobj | ldstr | newobj | castclass | isinst | convRUn | unbox | throw
  | ldfld | ldflda | stfld | ldsfld | ldsflda | stsfld | stobj | convOvfI1Un | convOvfI2Un
  | convOvfI4Un | convOvfI8Un | convOvfU1Un | convOvfU2Un | convOvfU4Un | convOvfU8Un
  | convOvfIUn | convOvfUUn | box | newarr | ldlen | ldelema | ldelemI1 | ldelemU1 | ldelemI2
  | ldelemU2 | ldelemI4 | ldelemU4 | ldelemI8 | ldelemI | ldelemR4 | ldelemR8 | ldelemRef
  | stelemI | stelemI1 | stelemI2 | stelemI4 | stelemI8 | stelemR4 | stelemR8 | stelemRef
  | ldelemAny | stelemAny | unboxAny | convOvfI1 | convOvfU1 | convOvfI2 | convOvfU2 | convOvfI4
  | convOvfU4 | convOvfI8 | convOvfU8 | refanyval | ckfinite | mkrefany | ldtoken | convU2
  | convU1 | convI | convOvfI | convOvfU | addOvf | addOvfUn | mulOvf | mulOvfUn | subOvf
  | subOvfUn | endfinally | leave | leaveS | stindI | convU | arglist | ceq | cgt | cgtUn | clt
  | cltUn | ldftn | ldvirtftn | ldarg | ldarga | starg | ldloc | ldloca | stloc | localloc
  | endfilter | unaligned | volatile | tail | initobj | constrained | cpblk | initblk | no
  | rethrow | sizeof | refanytype | readonly
  deriving DecidableEq

namespace Opcode

/-- The opcode's row in the table. -/
def row : Opcode → OpcodeRow
  | .nop => ⟨"nop", 0x00, .next, .none, .slots [], .slots []⟩
  | .breakpoint => ⟨"break", 0x01, .breakpoint, .none, .slots [], .slots []⟩
  | .ldarg0 => ⟨"ldarg.0", 0x02, .next, .none, .slots [], .slots [.any]⟩
  | .ldarg1 => ⟨"ldarg.1", 0x03, .next, .none, .slots [], .slots [.any]⟩
  | .ldarg2 => ⟨"ldarg.2", 0x04, .next, .none, .slots [], .slots [.any]⟩
  | .ldarg3 => ⟨"ldarg.3", 0x05, .next, .none, .slots [], .slots [.any]⟩
  | .ldloc0 => ⟨"ldloc.0", 0x06, .next, .none, .slots [], .slots [.any]⟩
  | .ldloc1 => ⟨"ldloc.1", 0x07, .next, .none, .slots [], .slots [.any]⟩
  | .ldloc2 => ⟨"ldloc.2", 0x08, .next, .none, .slots [], .slots [.any]⟩
  | .ldloc3 => ⟨"ldloc.3", 0x09, .next, .none, .slots [], .slots [.any]⟩
  | .stloc0 => ⟨"stloc.0", 0x0A, .next, .none, .slots [.any], .slots []⟩
  | .stloc1 => ⟨"stloc.1", 0x0B, .next, .none, .slots [.any], .slots []⟩
  | .stloc2 => ⟨"stloc.2", 0x0C, .next, .none, .slots [.any], .slots []⟩
  | .stloc3 => ⟨"stloc.3", 0x0D, .next, .none, .slots [.any], .slots []⟩
  | .ldargS => ⟨"ldarg.s", 0x0E, .next, .shortArgument, .slots [], .slots [.any]⟩
  | .ldargaS => ⟨"ldarga.s", 0x0F, .next, .shortArgument, .slots [], .slots [.int]⟩
  | .stargS => ⟨"starg.s", 0x10, .next, .shortArgument, .slots [.any], .slots []⟩
  | .ldlocS => ⟨"ldloc.s", 0x11, .next, .shortLocal, .slots [], .slots [.any]⟩
  | .ldlocaS => ⟨"ldloca.s", 0x12, .next, .shortLocal, .slots [], .slots [.int]⟩
  | .stlocS => ⟨"stloc.s", 0x13, .next, .shortLocal, .slots [.any], .slots []⟩
  | .ldnull => ⟨"ldnull", 0x14, .next, .none, .slots [], .slots [.ref]⟩
  | .ldcI4M1 => ⟨"ldc.i4.m1", 0x15, .next, .none, .slots [], .slots [.int]⟩
  | .ldcI4_0 => ⟨"ldc.i4.0", 0x16, .next, .none, .slots [], .slots [.int]⟩
  | .ldcI4_1 => ⟨"ldc.i4.1", 0x17, .next, .none, .slots [], .slots [.int]⟩
  | .ldcI4_2 => ⟨"ldc.i4.2", 0x18, .next, .none, .slots [], .slots [.int]⟩
  | .ldcI4_3 => ⟨"ldc.i4.3", 0x19, .next, .none, .slots [], .slots [.int]⟩
  | .ldcI4_4 => ⟨"ldc.i4.4", 0x1A, .next, .none, .slots [], .slots [.int]⟩
  | .ldcI4_5 => ⟨"ldc.i4.5", 0x1B, .next, .none, .slots [], .slots [.int]⟩
  | .ldcI4_6 => ⟨"ldc.i4.6", 0x1C, .next, .none, .slots [], .slots [.int]⟩
  | .ldcI4_7 => ⟨"ldc.i4.7", 0x1D, .next, .none, .slots [], .slots [.int]⟩
  | .ldcI4_8 => ⟨"ldc.i4.8", 0x1E, .next, .none, .slots [], .slots [.int]⟩
  | .ldcI4S => ⟨"ldc.i4.s", 0x1F, .next, .int8, .slots [], .slots [.int]⟩
  | .ldcI4 => ⟨"ldc.i4", 0x20, .next, .int32, .slots [], .slots [.int]⟩
  | .ldcI8 => ⟨"ldc.i8", 0x21, .next, .int64, .slots [], .slots [.long]⟩
  | .ldcR4 => ⟨"ldc.r4", 0x22, .next, .single, .slots [], .slots [.single]⟩
  | .ldcR8 => ⟨"ldc.r8", 0x23, .next, .double, .slots [], .slots [.double]⟩
  | .dup => ⟨"dup", 0x25, .next, .none, .slots [.any], .slots [.any, .any]⟩
  | .pop => ⟨"pop", 0x26, .next, .none, .slots [.any], .slots []⟩
  | .jmp => ⟨"jmp", 0x27, .call, .method, .slots [], .slots []⟩
  | .call => ⟨"call", 0x28, .call, .method, .byOperand, .byOperand⟩
  | .calli => ⟨"calli", 0x29, .call, .signature, .byOperand, .byOperand⟩
  | .ret => ⟨"ret", 0x2A, .ret, .none, .byOperand, .slots []⟩
  | .brS => ⟨"br.s", 0x2B, .branch, .shortTarget, .slots [], .slots []⟩
  | .brfalseS => ⟨"brfalse.s", 0x2C, .condBranch, .shortTarget, .slots [.int], .slots []⟩
  | .brtrueS => ⟨"brtrue.s", 0x2D, .condBranch, .shortTarget, .slots [.int], .slots []⟩
  | .beqS => ⟨"beq.s", 0x2E, .condBranch, .shortTarget, .slots [.any, .any], .slots []⟩
  | .bgeS => ⟨"bge.s", 0x2F, .condBranch, .shortTarget, .slots [.any, .any], .slots []⟩
  | .bgtS => ⟨"bgt.s", 0x30, .condBranch, .shortTarget, .slots [.any, .any], .slots []⟩
  | .bleS => ⟨"ble.s", 0x31, .condBranch, .shortTarget, .slots [.any, .any], .slots []⟩
  | .bltS => ⟨"blt.s", 0x32, .condBranch, .shortTarget, .slots [.any, .any], .slots []⟩
  | .bneUnS => ⟨"bne.un.s", 0x33, .condBranch, .shortTarget, .slots [.any, .any], .slots []⟩
  | .bgeUnS => ⟨"bge.un.s", 0x34, .condBranch, .shortTarget, .slots [.any, .any], .slots []⟩
  | .bgtUnS => ⟨"bgt.un.s", 0x35, .condBranch, .shortTarget, .slots [.any, .any], .slots []⟩
  | .bleUnS => ⟨"ble.un.s", 0x36, .condBranch, .shortTarget, .slots [.any, .any], .slots []⟩
  | .bltUnS => ⟨"blt.un.s", 0x37, .condBranch, .shortTarget, .slots [.any, .any], .slots []⟩
  | .br => ⟨"br", 0x38, .branch, .target, .slots [], .slots []⟩
  | .brfalse => ⟨"brfalse", 0x39, .condBranch, .target, .slots [.int], .slots []⟩
  | .brtrue => ⟨"brtrue", 0x3A, .condBranch, .target, .slots [.int], .slots []⟩
  | .beq => ⟨"beq", 0x3B, .condBranch, .target, .slots [.any, .any], .slots []⟩
  | .bge => ⟨"bge", 0x3C, .condBranch, .target, .slots [.any, .any], .slots []⟩
  | .bgt => ⟨"bgt", 0x3D, .condBranch, .target, .slots [.any, .any], .slots []⟩
  | .ble => ⟨"ble", 0x3E, .condBranch, .target, .slots [.any, .any], .slots []⟩
  | .blt => ⟨"blt", 0x3F, .condBranch, .target, .slots [.any, .any], .slots []⟩
  | .bneUn => ⟨"bne.un", 0x40, .condBranch, .target, .slots [.any, .any], .slots []⟩
  | .bgeUn => ⟨"bge.un", 0x41, .condBranch, .target, .slots [.any, .any], .slots []⟩
  | .bgtUn => ⟨"bgt.un", 0x42, .condBranch, .target, .slots [.any, .any], .slots []⟩
  | .bleUn => ⟨"ble.un", 0x43, .condBranch, .target, .slots [.any, .any], .slots []⟩
  | .bltUn => ⟨"blt.un", 0x44, .condBranch, .target, .slots [.any, .any], .slots []⟩
  | .switch => ⟨"switch", 0x45, .condBranch, .switch, .slots [.int], .slots []⟩
  | .ldindI1 => ⟨"ldind.i1", 0x46, .next, .none, .slots [.int], .slots [.int]⟩
  | .ldindU1 => ⟨"ldind.u1", 0x47, .next, .none, .slots [.int], .slots [.int]⟩
  | .ldindI2 => ⟨"ldind.i2", 0x48, .next, .none, .slots [.int], .slots [.int]⟩
  | .ldindU2 => ⟨"ldind.u2", 0x49, .next, .none, .slots [.int], .slots [.int]⟩
  | .ldindI4 => ⟨"ldind.i4", 0x4A, .next, .none, .slots [.int], .slots [.int]⟩
  | .ldindU4 => ⟨"ldind.u4", 0x4B, .next, .none, .slots [.int], .slots [.int]⟩
  | .ldindI8 => ⟨"ldind.i8", 0x4C, .next, .none, .slots [.int], .slots [.long]⟩
  | .ldindI => ⟨"ldind.i", 0x4D, .next, .none, .slots [.int], .slots [.int]⟩
  | .ldindR4 => ⟨"ldind.r4", 0x4E, .next, .none, .slots [.int], .slots [.single]⟩
  | .ldindR8 => ⟨"ldind.r8", 0x4F, .next, .none, .slots [.int], .slots [.double]⟩
  | .ldindRef => ⟨"ldind.ref", 0x50, .next, .none, .slots [.int], .slots [.ref]⟩
  | .stindRef => ⟨"stind.ref", 0x51, .next, .none, .slots [.int, .int], .slots []⟩
  | .stindI1 => ⟨"stind.i1", 0x52, .next, .none, .slots [.int, .int], .slots []⟩
  | .stindI2 => ⟨"stind.i2", 0x53, .next, .none, .slots [.int, .int], .slots []⟩
  | .stindI4 => ⟨"stind.i4", 0x54, .next, .none, .slots [.int, .int], .slots []⟩
  | .stindI8 => ⟨"stind.i8", 0x55, .next, .none, .slots [.int, .long], .slots []⟩
  | .stindR4 => ⟨"stind.r4", 0x56, .next, .none, .slots [.int, .single], .slots []⟩
  | .stindR8 => ⟨"stind.r8", 0x57, .next, .none, .slots [.int, .double], .slots []⟩
  | .add => ⟨"add", 0x58, .next, .none, .slots [.any, .any], .slots [.any]⟩
  | .sub => ⟨"sub", 0x59, .next, .none, .slots [.any, .any], .slots [.any]⟩
  | .mul => ⟨"mul", 0x5A, .next, .none, .slots [.any, .any], .slots [.any]⟩
  | .div => ⟨"div", 0x5B, .next, .none, .slots [.any, .any], .slots [.any]⟩
  | .divUn => ⟨"div.un", 0x5C, .next, .none, .slots [.any, .any], .slots [.any]⟩
  | .rem => ⟨"rem", 0x5D, .next, .none, .slots [.any, .any], .slots [.any]⟩
  | .remUn => ⟨"rem.un", 0x5E, .next, .none, .slots [.any, .any], .slots [.any]⟩
  | .and => ⟨"and", 0x5F, .next, .none, .slots [.any, .any], .slots [.any]⟩
  | .or => ⟨"or", 0x60, .next, .none, .slots [.any, .any], .slots [.any]⟩
  | .xor => ⟨"xor", 0x61, .next, .none, .slots [.any, .any], .slots [.any]⟩
  | .shl => ⟨"shl", 0x62, .next, .none, .slots [.any, .any], .slots [.any]⟩
  | .shr => ⟨"shr", 0x63, .next, .none, .slots [.any, .any], .slots [.any]⟩
  | .shrUn => ⟨"shr.un", 0x64, .next, .none, .slots [.any, .any], .slots [.any]⟩
  | .neg => ⟨"neg", 0x65, .next, .none, .slots [.any], .slots [.any]⟩
  | .not => ⟨"not", 0x66, .next, .none, .slots [.any], .slots [.any]⟩
  | .convI1 => ⟨"conv.i1", 0x67, .next, .none, .slots [.any], .slots [.int]⟩
  | .convI2 => ⟨"conv.i2", 0x68, .next, .none, .slots [.any], .slots [.int]⟩
  | .convI4 => ⟨"conv.i4", 0x69, .next, .none, .slots [.any], .slots [.int]⟩
  | .convI8 => ⟨"conv.i8", 0x6A, .next, .none, .slots [.any], .slots [.long]⟩
  | .convR4 => ⟨"conv.r4", 0x6B, .next, .none, .slots [.any], .slots [.single]⟩
  | .convR8 => ⟨"conv.r8", 0x6C, .next, .none, .slots [.any], .slots [.double]⟩
  | .convU4 => ⟨"conv.u4", 0x6D, .next, .none, .slots [.any], .slots [.int]⟩
  | .convU8 => ⟨"conv.u8", 0x6E, .next, .none, .slots [.any], .slots [.long]⟩
  | .callvirt => ⟨"callvirt", 0x6F, .call, .method, .byOperand, .byOperand⟩
  | .cpobj => ⟨"cpobj", 0x70, .next, .typeName, .slots [.int, .int], .slots []⟩
  | .ldobj => ⟨"ldobj", 0x71, .next, .typeName, .slots [.int], .slots [.any]⟩
  | .ldstr => ⟨"ldstr", 0x72, .next, .text, .slots [], .slots [.ref]⟩
  | .newobj => ⟨"newobj", 0x73, .call, .method, .byOperand, .slots [.ref]⟩
  | .castclass => ⟨"castclass", 0x74, .next, .typeName, .slots [.ref], .slots [.ref]⟩
  | .isinst => ⟨"isinst", 0x75, .next, .typeName, .slots [.ref], .slots [.int]⟩
  | .convRUn => ⟨"conv.r.un", 0x76, .next, .none, .slots [.any], .slots [.double]⟩
  | .unbox => ⟨"unbox", 0x79, .next, .typeName, .slots [.ref], .slots [.int]⟩
  | .throw => ⟨"throw", 0x7A, .throw, .none, .slots [.ref], .slots []⟩
  | .ldfld => ⟨"ldfld", 0x7B, .next, .field, .slots [.ref], .slots [.any]⟩
  | .ldflda => ⟨"ldflda", 0x7C, .next, .field, .slots [.ref], .slots [.int]⟩
  | .stfld => ⟨"stfld", 0x7D, .next, .field, .slots [.ref, .any], .slots []⟩
  | .ldsfld => ⟨"ldsfld", 0x7E, .next, .field, .slots [], .slots [.any]⟩
  | .ldsflda => ⟨"ldsflda", 0x7F, .next, .field, .slots [], .slots [.int]⟩
  | .stsfld => ⟨"stsfld", 0x80, .next, .field, .slots [.any], .slots []⟩
  | .stobj => ⟨"stobj", 0x81, .next, .typeName, .slots [.int, .any], .slots []⟩
  | .convOvfI1Un => ⟨"conv.ovf.i1.un", 0x82, .next, .none, .slots [.any], .slots [.int]⟩
  | .convOvfI2Un => ⟨"conv.ovf.i2.un", 0x83, .next, .none, .slots [.any], .slots [.int]⟩
  | .convOvfI4Un => ⟨"conv.ovf.i4.un", 0x84, .next, .none, .slots [.any], .slots [.int]⟩
  | .convOvfI8Un => ⟨"conv.ovf.i8.un", 0x85, .next, .none, .slots [.any], .slots [.long]⟩
  | .convOvfU1Un => ⟨"conv.ovf.u1.un", 0x86, .next, .none, .slots [.any], .slots [.int]⟩
  | .convOvfU2Un => ⟨"conv.ovf.u2.un", 0x87, .next, .none, .slots [.any], .slots [.int]⟩
  | .convOvfU4Un => ⟨"conv.ovf.u4.un", 0x88, .next, .none, .slots [.any], .slots [.int]⟩
  | .convOvfU8Un => ⟨"conv.ovf.u8.un", 0x89, .next, .none, .slots [.any], .slots [.long]⟩
  | .convOvfIUn => ⟨"conv.ovf.i.un", 0x8A, .next, .none, .slots [.any], .slots [.int]⟩
  | .convOvfUUn => ⟨"conv.ovf.u.un", 0x8B, .next, .none, .slots [.any], .slots [.int]⟩
  | .box => ⟨"box", 0x8C, .next, .typeName, .slots [.any], .slots [.ref]⟩
  | .newarr => ⟨"newarr", 0x8D, .next, .typeName, .slots [.int], .slots [.ref]⟩
  | .ldlen => ⟨"ldlen", 0x8E, .next, .none, .slots [.ref], .slots [.int]⟩
  | .ldelema => ⟨"ldelema", 0x8F, .next, .typeName, .slots [.ref, .int], .slots [.int]⟩
  | .ldelemI1 => ⟨"ldelem.i1", 0x90, .next, .none, .slots [.ref, .int], .slots [.int]⟩
  | .ldelemU1 => ⟨"ldelem.u1", 0x91, .next, .none, .slots [.ref, .int], .slots [.int]⟩
  | .ldelemI2 => ⟨"ldelem.i2", 0x92, .next, .none, .slots [.ref, .int], .slots [.int]⟩
  | .ldelemU2 => ⟨"ldelem.u2", 0x93, .next, .none, .slots [.ref, .int], .slots [.int]⟩
  | .ldelemI4 => ⟨"ldelem.i4", 0x94, .next, .none, .slots [.ref, .int], .slots [.int]⟩
  | .ldelemU4 => ⟨"ldelem.u4", 0x95, .next, .none, .slots [.ref, .int], .slots [.int]⟩
  | .ldelemI8 => ⟨"ldelem.i8", 0x96, .next, .none, .slots [.ref, .int], .slots [.long]⟩
  | .ldelemI => ⟨"ldelem.i", 0x97, .next, .none, .slots [.ref, .int], .slots [.int]⟩
  | .ldelemR4 => ⟨"ldelem.r4", 0x98, .next, .none, .slots [.ref, .int], .slots [.single]⟩
  | .ldelemR8 => ⟨"ldelem.r8", 0x99, .next, .none, .slots [.ref, .int], .slots [.double]⟩
  | .ldelemRef => ⟨"ldelem.ref", 0x9A, .next, .none, .slots [.ref, .int], .slots [.ref]⟩
  | .stelemI => ⟨"stelem.i", 0x9B, .next, .none, .slots [.ref, .int, .int], .slots []⟩
  | .stelemI1 => ⟨"stelem.i1", 0x9C, .next, .none, .slots [.ref, .int, .int], .slots []⟩
  | .stelemI2 => ⟨"stelem.i2", 0x9D, .next, .none, .slots [.ref, .int, .int], .slots []⟩
  | .stelemI4 => ⟨"stelem.i4", 0x9E, .next, .none, .slots [.ref, .int, .int], .slots []⟩
  | .stelemI8 => ⟨"stelem.i8", 0x9F, .next, .none, .slots [.ref, .int, .long], .slots []⟩
  | .stelemR4 => ⟨"stelem.r4", 0xA0, .next, .none, .slots [.ref, .int, .single], .slots []⟩
  | .stelemR8 => ⟨"stelem.r8", 0xA1, .next, .none, .slots [.ref, .int, .double], .slots []⟩
  | .stelemRef => ⟨"stelem.ref", 0xA2, .next, .none, .slots [.ref, .int, .ref], .slots []⟩
  | .ldelemAny => ⟨"ldelem.any", 0xA3, .next, .typeName, .slots [.ref, .int], .slots [.any]⟩
  | .stelemAny => ⟨"stelem.any", 0xA4, .next, .typeName, .slots [.ref, .int, .ref], .slots []⟩
  | .unboxAny => ⟨"unbox.any", 0xA5, .next, .typeName, .slots [.ref], .slots [.any]⟩
  | .convOvfI1 => ⟨"conv.ovf.i1", 0xB3, .next, .none, .slots [.any], .slots [.int]⟩
  | .convOvfU1 => ⟨"conv.ovf.u1", 0xB4, .next, .none, .slots [.any], .slots [.int]⟩
  | .convOvfI2 => ⟨"conv.ovf.i2", 0xB5, .next, .none, .slots [.any], .slots [.int]⟩
  | .convOvfU2 => ⟨"conv.ovf.u2", 0xB6, .next, .none, .slots [.any], .slots [.int]⟩
  | .convOvfI4 => ⟨"conv.ovf.i4", 0xB7, .next, .none, .slots [.any], .slots [.int]⟩
  | .convOvfU4 => ⟨"conv.ovf.u4", 0xB8, .next, .none, .slots [.any], .slots [.int]⟩
  | .convOvfI8 => ⟨"conv.ovf.i8", 0xB9, .next, .none, .slots [.any], .slots [.long]⟩
  | .convOvfU8 => ⟨"conv.ovf.u8", 0xBA, .next, .none, .slots [.any], .slots [.long]⟩
  | .refanyval => ⟨"refanyval", 0xC2, .next, .typeName, .slots [.any], .slots [.int]⟩
  | .ckfinite => ⟨"ckfinite", 0xC3, .next, .none, .slots [.any], .slots [.double]⟩
  | .mkrefany => ⟨"mkrefany", 0xC6, .next, .typeName, .slots [.int], .slots [.any]⟩
  | .ldtoken => ⟨"ldtoken", 0xD0, .next, .token, .slots [], .slots [.int]⟩
  | .convU2 => ⟨"conv.u2", 0xD1, .next, .none, .slots [.any], .slots [.int]⟩
  | .convU1 => ⟨"conv.u1", 0xD2, .next, .none, .slots [.any], .slots [.int]⟩
  | .convI => ⟨"conv.i", 0xD3, .next, .none, .slots [.any], .slots [.int]⟩
  | .convOvfI => ⟨"conv.ovf.i", 0xD4, .next, .none, .slots [.any], .slots [.int]⟩
  | .convOvfU => ⟨"conv.ovf.u", 0xD5, .next, .none, .slots [.any], .slots [.int]⟩
  | .addOvf => ⟨"add.ovf", 0xD6, .next, .none, .slots [.any, .any], .slots [.any]⟩
  | .addOvfUn => ⟨"add.ovf.un", 0xD7, .next, .none, .slots [.any, .any], .slots [.any]⟩
  | .mulOvf => ⟨"mul.ovf", 0xD8, .next, .none, .slots [.any, .any], .slots [.any]⟩
  | .mulOvfUn => ⟨"mul.ovf.un", 0xD9, .next, .none, .slots [.any, .any], .slots [.any]⟩
  | .subOvf => ⟨"sub.ovf", 0xDA, .next, .none, .slots [.any, .any], .slots [.any]⟩
  | .subOvfUn => ⟨"sub.ovf.un", 0xDB, .next, .none, .slots [.any, .any], .slots [.any]⟩
  | .endfinally => ⟨"endfinally", 0xDC, .ret, .none, .slots [], .slots []⟩
  | .leave => ⟨"leave", 0xDD, .branch, .target, .everything, .slots []⟩
  | .leaveS => ⟨"leave.s", 0xDE, .branch, .shortTarget, .everything, .slots []⟩
  | .stindI => ⟨"stind.i", 0xDF, .next, .none, .slots [.int, .int], .slots []⟩
  | .convU => ⟨"conv.u", 0xE0, .next, .none, .slots [.any], .slots [.int]⟩
  | .arglist => ⟨"arglist", 0xFE00, .next, .none, .slots [], .slots [.int]⟩
  | .ceq => ⟨"ceq", 0xFE01, .next, .none, .slots [.any, .any], .slots [.int]⟩
  | .cgt => ⟨"cgt", 0xFE02, .next, .none, .slots [.any, .any], .slots [.int]⟩
  | .cgtUn => ⟨"cgt.un", 0xFE03, .next, .none, .slots [.any, .any], .slots [.int]⟩
  | .clt => ⟨"clt", 0xFE04, .next, .none, .slots [.any, .any], .slots [.int]⟩
  | .cltUn => ⟨"clt.un", 0xFE05, .next, .none, .slots [.any, .any], .slots [.int]⟩
  | .ldftn => ⟨"ldftn", 0xFE06, .next, .method, .slots [], .slots [.int]⟩
  | .ldvirtftn => ⟨"ldvirtftn", 0xFE07, .next, .method, .slots [.ref], .slots [.int]⟩
  | .ldarg => ⟨"ldarg", 0xFE09, .next, .argument, .slots [], .slots [.any]⟩
  | .ldarga => ⟨"ldarga", 0xFE0A, .next, .argument, .slots [], .slots [.int]⟩
  | .starg => ⟨"starg", 0xFE0B, .next, .argument, .slots [.any], .slots []⟩
  | .ldloc => ⟨"ldloc", 0xFE0C, .next, .localVar, .slots [], .slots [.any]⟩
  | .ldloca => ⟨"ldloca", 0xFE0D, .next, .localVar, .slots [], .slots [.int]⟩
  | .stloc => ⟨"stloc", 0xFE0E, .next, .localVar, .slots [.any], .slots []⟩
  | .localloc => ⟨"localloc", 0xFE0F, .next, .none, .slots [.int], .slots [.int]⟩
  | .endfilter => ⟨"endfilter", 0xFE11, .ret, .none, .slots [.int], .slots []⟩
  | .unaligned => ⟨"unaligned.", 0xFE12, .modifier, .int8, .slots [], .slots []⟩
  | .volatile => ⟨"volatile.", 0xFE13, .modifier, .none, .slots [], .slots []⟩
  | .tail => ⟨"tail.", 0xFE14, .modifier, .none, .slots [], .slots []⟩
  | .initobj => ⟨"initobj", 0xFE15, .next, .typeName, .slots [.int], .slots []⟩
  | .constrained => ⟨"constrained.", 0xFE16, .modifier, .typeName, .slots [], .slots []⟩
  | .cpblk => ⟨"cpblk", 0xFE17, .next, .none, .slots [.int, .int, .int], .slots []⟩
  | .initblk => ⟨"initblk", 0xFE18, .next, .none, .slots [.int, .int, .int], .slots []⟩
  | .no => ⟨"no.", 0xFE19, .modifier, .int8, .slots [], .slots []⟩
  | .rethrow => ⟨"rethrow", 0xFE1A, .throw, .none, .slots [], .slots []⟩
  | .sizeof => ⟨"sizeof", 0xFE1C, .next, .typeName, .slots [], .slots [.int]⟩
  | .refanytype => ⟨"refanytype", 0xFE1D, .next, .none, .slots [.any], .slots [.int]⟩
  | .readonly => ⟨"readonly.", 0xFE1E, .modifier, .none, .slots [], .slots []⟩

/-- Every opcode, in the order of the encodings. -/
def all : List Opcode :=
  [.nop, .breakpoint, .ldarg0, .ldarg1, .ldarg2, .ldarg3, .ldloc0, .ldloc1, .ldloc2, .ldloc3,
   .stloc0, .stloc1, .stloc2, .stloc3, .ldargS, .ldargaS, .stargS, .ldlocS, .ldlocaS, .stlocS,
   .ldnull, .ldcI4M1, .ldcI4_0, .ldcI4_1, .ldcI4_2, .ldcI4_3, .ldcI4_4, .ldcI4_5, .ldcI4_6,
   .ldcI4_7, .ldcI4_8, .ldcI4S, .ldcI4, .ldcI8, .ldcR4, .ldcR8, .dup, .pop, .jmp, .call, .calli,
   .ret, .brS, .brfalseS, .brtrueS, .beqS, .bgeS, .bgtS, .bleS, .bltS, .bneUnS, .bgeUnS, .bgtUnS,
   .bleUnS, .bltUnS, .br, .brfalse, .brtrue, .beq, .bge, .bgt, .ble, .blt, .bneUn, .bgeUn, .bgtUn,
   .bleUn, .bltUn, .switch, .ldindI1, .ldindU1, .ldindI2, .ldindU2, .ldindI4, .ldindU4, .ldindI8,
   .ldindI, .ldindR4, .ldindR8, .ldindRef, .stindRef, .stindI1, .stindI2, .stindI4, .stindI8,
   .stindR4, .stindR8, .add, .sub, .mul, .div, .divUn, .rem, .remUn, .and, .or, .xor, .shl, .shr,
   .shrUn, .neg, .not, .convI1, .convI2, .convI4, .convI8, .convR4, .convR8, .convU4, .convU8,
   .callvirt, .cpobj, .ldobj, .ldstr, .newobj, .castclass, .isinst, .convRUn, .unbox, .throw,
   .ldfld, .ldflda, .stfld, .ldsfld, .ldsflda, .stsfld, .stobj, .convOvfI1Un, .convOvfI2Un,
   .convOvfI4Un, .convOvfI8Un, .convOvfU1Un, .convOvfU2Un, .convOvfU4Un, .convOvfU8Un, .convOvfIUn,
   .convOvfUUn, .box, .newarr, .ldlen, .ldelema, .ldelemI1, .ldelemU1, .ldelemI2, .ldelemU2,
   .ldelemI4, .ldelemU4, .ldelemI8, .ldelemI, .ldelemR4, .ldelemR8, .ldelemRef, .stelemI,
   .stelemI1, .stelemI2, .stelemI4, .stelemI8, .stelemR4, .stelemR8, .stelemRef, .ldelemAny,
   .stelemAny, .unboxAny, .convOvfI1, .convOvfU1, .convOvfI2, .convOvfU2, .convOvfI4, .convOvfU4,
   .convOvfI8, .convOvfU8, .refanyval, .ckfinite, .mkrefany, .ldtoken, .convU2, .convU1, .convI,
   .convOvfI, .convOvfU, .addOvf, .addOvfUn, .mulOvf, .mulOvfUn, .subOvf, .subOvfUn, .endfinally,
   .leave, .leaveS, .stindI, .convU, .arglist, .ceq, .cgt, .cgtUn, .clt, .cltUn, .ldftn,
   .ldvirtftn, .ldarg, .ldarga, .starg, .ldloc, .ldloca, .stloc, .localloc, .endfilter, .unaligned,
   .volatile, .tail, .initobj, .constrained, .cpblk, .initblk, .no, .rethrow, .sizeof, .refanytype,
   .readonly]

end Opcode

end PushGuard
