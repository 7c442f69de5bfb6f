/-!
# What the opcode table says of an opcode

Every opcode is described without its meaning: how control goes on after it, which operand follows
it in the byte stream, and which values it takes from the evaluation stack and puts there.
-/

namespace PushGuard

/-- How control goes on after an instruction. -/
inductive Flow
  /-- To a target, always. -/
  | branch
  /-- To the next instruction, after a stop for the debugger. -/
  | breakpoint
  /-- To the next instruction, after a call; `jmp` and `newobj` count as calls. -/
  | call
  /-- To a target or to the next instruction. -/
  | condBranch
  /-- To the next instruction, whose behaviour it modifies. -/
  | modifier
  /-- To the next instruction. -/
  | next
  /-- Out of the method or of the protected block. -/
  | ret
  /-- To a handler. -/
  | throw
  deriving DecidableEq

namespace Flow

/-- The next instruction is not reached from an instruction with this flow. -/
def stops : Flow → Bool
  | branch | ret | throw => true
  | breakpoint | call | condBranch | modifier | next => false

end Flow

/-- The operand that follows an opcode. -/
inductive OperandShape
  | none | target | shortTarget | switch | method | signature | field | typeName | token | text
  | int32 | int8 | int64 | double | single | localVar | shortLocal | argument | shortArgument
  deriving DecidableEq

namespace OperandShape

/-- Bytes of the encoded operand.  A `switch` has a count and one entry for each target, so its
width is not fixed. -/
def width? : OperandShape → Option Nat
  | none => some 0
  | shortTarget | int8 | shortLocal | shortArgument => some 1
  | localVar | argument => some 2
  | target | method | signature | field | typeName | token | text | int32 | single => some 4
  | int64 | double => some 8
  | switch => .none

/-- The operand names one or more instructions. -/
def isTarget : OperandShape → Bool
  | target | shortTarget | switch => true
  | _ => false

end OperandShape

/-- What the table says of the type of one stack value. -/
inductive Slot
  | any | int | long | single | double | ref
  deriving DecidableEq

namespace Slot

/-- The slot's name inside the name of a stack rule. -/
def mark : Slot → String
  | any => "1"
  | int => "i"
  | long => "i8"
  | single => "r4"
  | double => "r8"
  | ref => "ref"

end Slot

/-- What an opcode takes from the stack, the deepest value first. -/
inductive PopRule
  | slots (kinds : List Slot)
  /-- The whole stack. -/
  | everything
  /-- As many values as the operand or the method says. -/
  | byOperand
  deriving DecidableEq

/-- What an opcode puts on the stack, the deepest value first. -/
inductive PushRule
  | slots (kinds : List Slot)
  /-- A value or none, as the operand says. -/
  | byOperand
  deriving DecidableEq

/-- A side of an opcode's effect on the stack. -/
inductive StackRule
  | pops (rule : PopRule)
  | pushes (rule : PushRule)
  deriving DecidableEq

namespace StackRule

/-- One word per slot, or the word with a zero if there is no slot. -/
def slotsName (word : String) : List Slot → String
  | [] => word ++ "0"
  | kinds => String.join (kinds.map fun kind => word ++ kind.mark)

/-- The rule's name in a report. -/
def name : StackRule → String
  | pops (.slots kinds) => slotsName "Pop" kinds
  | pops .everything => "PopAll"
  | pops .byOperand => "Varpop"
  | pushes (.slots kinds) => slotsName "Push" kinds
  | pushes .byOperand => "Varpush"

end StackRule

/-- A row of the opcode table. -/
structure OpcodeRow where
  mnemonic : String
  /-- One byte, or two bytes of which the first is `0xFE`. -/
  encoding : Nat
  flow : Flow
  shape : OperandShape
  pops : PopRule
  pushes : PushRule

end PushGuard
