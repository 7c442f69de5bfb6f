import PushGuard.Instruction
import PushGuard.Text.Blank

/-!
# Looking up opcodes, and their operands

Both keys of the opcode table are unique: an opcode is found again by its encoding and by its
mnemonic.  An encoding has one byte below `0xFE`, or two bytes of which the first is `0xFE`; a
mnemonic is a word that does not begin like a directive.

The second part says which operands belong to an opcode: those that the shape of its operand admits.
-/

namespace PushGuard

namespace Opcode

theorem mem_all (code : Opcode) : code ∈ all := by
  have hget : all[code.ctorIdx]? = some code := by
    cases code <;> rfl
  exact List.mem_of_getElem? hget

theorem ofEncoding?_encoding (code : Opcode) : ofEncoding? code.encoding = some code := by
  have h : ∀ code ∈ all, ofEncoding? code.encoding = some code := by decide +kernel
  exact h code code.mem_all

theorem ofMnemonic?_mnemonic (code : Opcode) : ofMnemonic? code.mnemonic = some code := by
  have h : ∀ code ∈ all, ofMnemonic? code.mnemonic = some code := by decide +kernel
  exact h code code.mem_all

/-- One byte, or two of which the first is `0xFE`. -/
theorem encoding_range (code : Opcode) :
    code.encoding < 0xFE ∨ 0xFE00 ≤ code.encoding ∧ code.encoding < 0xFF00 := by
  have h : ∀ code ∈ all, code.encoding < 0xFE ∨ 0xFE00 ≤ code.encoding ∧ code.encoding < 0xFF00 := by
    decide +kernel
  exact h code code.mem_all

/-- A mnemonic has no blanks, and begins unlike a directive. -/
theorem mnemonic_spelling (code : Opcode) :
    ∃ c s, code.mnemonic.toList = c :: s ∧ c ≠ '.' ∧ ∀ d ∈ c :: s, Text.isBlank d = false := by
  have h : ∀ code ∈ all, code.mnemonic.toList.head?.any (· != '.') = true ∧
      code.mnemonic.toList.all (fun c => !Text.isBlank c) = true := by
    decide +kernel
  obtain ⟨hhead, hall⟩ := h code code.mem_all
  cases htext : code.mnemonic.toList with
  | nil => rw [htext] at hhead; cases hhead
  | cons c s =>
    rw [htext] at hhead hall
    refine ⟨c, s, rfl, bne_iff_ne.1 hhead, fun d hd => ?_⟩
    simpa using List.all_eq_true.1 hall d hd

theorem eq_switch_of_shape {code : Opcode} (h : code.shape = .switch) : code = .switch := by
  have hall : ∀ code ∈ all, code.shape = .switch → code = .switch := by decide +kernel
  exact hall code code.mem_all h

end Opcode

/-- The operand is of the kind that an operand of this shape has.  A field, a type and a string are
given by their tokens or by their names. -/
def OperandShape.admits : OperandShape → Operand → Bool
  | none, .none => true
  | target, .target _ | shortTarget, .target _ => true
  | switch, .switch _ => true
  | method, .method _ => true
  | signature, .signature _ => true
  | field, .token _ | typeName, .token _ | token, .token _ | text, .token _ => true
  | field, .symbol _ | typeName, .symbol _ | token, .symbol _ => true
  | text, .text _ => true
  | int32, .int32 _ => true
  | int8, .int8 _ => true
  | int64, .int64 _ => true
  | double, .double _ => true
  | single, .single _ => true
  | localVar, .localVar _ | shortLocal, .localVar _ => true
  | argument, .argument _ | shortArgument, .argument _ => true
  | _, _ => false

theorem OperandShape.eq_switch_of_admits {shape : OperandShape}
    {targets : List (Option InstructionId)} (h : shape.admits (.switch targets)) :
    shape = .switch := by
  cases shape with
  | switch => rfl
  | _ => cases h

/-- Only shapes that name instructions admit targets. -/
theorem OperandShape.admits_cases {shape : OperandShape} {operand : Operand}
    (h : shape.admits operand) :
    shape = .none ∧ operand = .none ∨
      (∃ target, (shape = .target ∨ shape = .shortTarget) ∧ operand = .target target) ∨
      (∃ targets, shape = .switch ∧ operand = .switch targets) ∨
      (shape ≠ .none ∧ shape.isTarget = false) ∧
        (∀ target, operand ≠ .target target) ∧ ∀ targets, operand ≠ .switch targets := by
  unfold admits at h
  split at h
  all_goals simp_all [isTarget]

end PushGuard
