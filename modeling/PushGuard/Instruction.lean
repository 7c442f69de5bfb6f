import PushGuard.Opcode
import PushGuard.Signature
import PushGuard.Decimal.Shortest
import PushGuard.Text.Quoted

/-!
# Instructions

An instruction is an opcode with an operand at a byte offset.  Instructions are named by their
place in the body, counted from zero, because two of them may be equal in all else.
-/

namespace PushGuard

/-- The place of an instruction in its body. -/
abbrev InstructionId := Nat

/-- What an instruction carries besides its opcode.  Any operand may stand with any opcode; the
readers give each opcode the operand of its shape. -/
inductive Operand
  | none
  | int8 (value : Int8)
  | int32 (value : Int32)
  | int64 (value : Int64)
  | single (bits : UInt32)
  | double (bits : UInt64)
  | localVar (index : UInt16)
  | argument (index : UInt16)
  /-- A branch target, unless no instruction starts where the branch goes. -/
  | target (id : Option InstructionId)
  | switch (ids : List (Option InstructionId))
  | method (method : MethodRef)
  /-- The signature of a call through a pointer. -/
  | signature (signature : Signature)
  /-- A reference into the metadata that was not looked up. -/
  | token (value : UInt32)
  /-- A field or a type by its name. -/
  | symbol (name : String)
  | text (value : String)
  deriving DecidableEq

namespace Operand

/-- The targets of a branch or switch, the unresolved ones included. -/
def targets : Operand → List (Option InstructionId)
  | target id => [id]
  | switch ids => ids
  | _ => []

/-- The signature that a call with this operand has. -/
def signature? : Operand → Option Signature
  | method m => some m.signature
  | signature s => some s
  | _ => .none

/-- The method that the operand names. -/
def method? : Operand → Option MethodRef
  | method m => some m
  | _ => .none

/-- The operand's text behind the mnemonic and a blank, with a given spelling of the targets. -/
def textWith (targetText : Option InstructionId → String) : Operand → String
  | none => ""
  | int8 value => " " ++ Text.signedDecimal value.toInt
  | int32 value => " " ++ Text.signedDecimal value.toInt
  | int64 value => " " ++ Text.signedDecimal value.toInt
  | single bits => " " ++ FloatFormat.single.text bits.toNat
  | double bits => " " ++ FloatFormat.double.text bits.toNat
  | localVar index => " " ++ Text.decimal index.toNat
  | argument index => " " ++ Text.decimal index.toNat
  | target id => " " ++ targetText id
  | switch ids => " (" ++ String.intercalate ", " (ids.map targetText) ++ ")"
  | method m =>
    (if m.signature.implicitReceiver then " instance " else " ") ++ m.fullName
  | signature s => " " ++ s.text
  | token value => " 0x" ++ Text.hex 8 value.toNat
  | symbol name => " " ++ name
  | text value => " " ++ Text.quote value

/-- A floating point operand that is not a number differs from itself when operands are
compared as numbers. -/
def isNaN : Operand → Bool
  | single bits => FloatFormat.single.isNaN bits.toNat
  | double bits => FloatFormat.double.isNaN bits.toNat
  | _ => false

end Operand

/-- The name of an instruction by its place. -/
def InstructionId.text (id : InstructionId) : String := "#" ++ Text.decimal id

/-- The name of a branch target in the text of an instruction. -/
def targetText : Option InstructionId → String
  | some id => InstructionId.text id
  | none => "<invalid>"

/-- The name of a byte offset. -/
def offsetText (offset : Nat) : String := "IL_" ++ Text.hex 4 offset

structure Instruction where
  code : Opcode
  operand : Operand := .none
  /-- Bytes from the start of the code. -/
  offset : UInt32 := 0
  deriving DecidableEq

namespace Instruction

def isNop (i : Instruction) : Bool := i.code == .nop

/-- Bytes of the encoded instruction. -/
def width (i : Instruction) : Nat :=
  i.code.size + match i.code.shape.width? with
    | some width => width
    | none => match i.operand with
      | .switch ids => 4 + 4 * ids.length
      | _ => 4

/-- The instruction as reports show it, for instance `IL_0002: ldc.i4.s 7`. -/
def text (i : Instruction) : String :=
  offsetText i.offset.toNat ++ ": " ++ i.code.mnemonic ++ i.operand.textWith targetText

end Instruction

end PushGuard
