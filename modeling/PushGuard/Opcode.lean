import PushGuard.Opcode.Table

/-!
# Looking up opcodes
-/

namespace PushGuard.Opcode

def mnemonic (code : Opcode) : String := code.row.mnemonic

def encoding (code : Opcode) : Nat := code.row.encoding

def flow (code : Opcode) : Flow := code.row.flow

def shape (code : Opcode) : OperandShape := code.row.shape

def pops (code : Opcode) : PopRule := code.row.pops

def pushes (code : Opcode) : PushRule := code.row.pushes

/-- Bytes of the opcode itself, without its operand. -/
def size (code : Opcode) : Nat := if code.encoding > 0xFF then 2 else 1

/-- The opcode with this encoding. -/
def ofEncoding? (value : Nat) : Option Opcode := all.find? fun code => code.encoding == value

/-- The opcode with this mnemonic. -/
def ofMnemonic? (name : String) : Option Opcode := all.find? fun code => code.mnemonic == name

/-- The opcode stores an array element. -/
def storesElement : Opcode → Bool
  | stelemAny | stelemI | stelemI1 | stelemI2 | stelemI4 | stelemI8 | stelemR4 | stelemR8
  | stelemRef => true
  | _ => false

end PushGuard.Opcode
