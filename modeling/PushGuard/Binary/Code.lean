import PushGuard.Binary.Bytes
import PushGuard.Instruction

/-!
# The code stream

Instructions follow one another without gaps.  The operand of a branch is a displacement from the
end of its instruction; it becomes an absolute offset here and the name of an instruction when all
of them are known.
-/

namespace PushGuard

/-- Looks up what the metadata tokens of a body stand for. -/
structure TokenTable where
  method? : UInt32 → Option MethodRef
  signature? : UInt32 → Option Signature
  /-- The name of a caught type. -/
  typeName? : UInt32 → Option String := fun _ => none

namespace Binary

/-- An operand in which branch targets are byte offsets.  An offset may lie in front of the code. -/
inductive CodedOperand
  | plain (operand : Operand)
  | branch (offset : Int)
  | switch (offsets : List Int)
  deriving DecidableEq

structure CodedInstruction where
  offset : Nat
  code : Opcode
  operand : CodedOperand
  deriving DecidableEq

/-- The signed number with these 32 bits. -/
def signed32 (n : Nat) : Int := (Int32.ofNat n).toInt

/-- The signed number with these 8 bits. -/
def signed8 (n : Nat) : Int := (Int8.ofNat n).toInt

/-- Reads an opcode: one byte, or two of which the first is `0xFE`. -/
def readOpcode (offset : Nat) (bytes : List UInt8) : Except BinaryFault (Opcode × List UInt8) := do
  let (first, bytes) ← readWord 1 bytes
  if first = 0xFE then
    let (second, bytes) ← readWord 1 bytes
    match Opcode.ofEncoding? (0xFE00 + second) with
    | some code => return (code, bytes)
    | none => .error (.unknownOpcode (0xFE00 + second) offset)
  else
    match Opcode.ofEncoding? first with
    | some code => return (code, bytes)
    | none => .error (.unknownOpcode first offset)

/-- Reads an operand that a number of `width` bytes determines. -/
def readPlain (width : Nat) (operand : Nat → Operand) (bytes : List UInt8) :
    Except BinaryFault (CodedOperand × List UInt8) := do
  let (n, bytes) ← readWord width bytes
  return (.plain (operand n), bytes)

/-- Reads an operand that a token stands for. -/
def readToken {α : Type} (lookup : UInt32 → Option α) (operand : α → Operand) (offset : Nat)
    (bytes : List UInt8) : Except BinaryFault (CodedOperand × List UInt8) := do
  let (n, bytes) ← readWord 4 bytes
  match lookup (UInt32.ofNat n) with
  | some a => return (.plain (operand a), bytes)
  | none => .error (.unresolvedToken (UInt32.ofNat n) offset)

/-- Reads the operand of an instruction that starts at `offset`.  `place` is the offset of the
operand. -/
def readOperand (tokens : TokenTable) (offset place : Nat) (shape : OperandShape)
    (bytes : List UInt8) : Except BinaryFault (CodedOperand × List UInt8) :=
  match shape with
  | .none => .ok (.plain .none, bytes)
  | .shortTarget => do
    let (n, bytes) ← readWord 1 bytes
    return (.branch ((place + 1 : Nat) + signed8 n), bytes)
  | .target => do
    let (n, bytes) ← readWord 4 bytes
    return (.branch ((place + 4 : Nat) + signed32 n), bytes)
  | .switch => do
    let (count, bytes) ← readWord 4 bytes
    let (ns, bytes) ← readWords count bytes
    return (.switch (ns.map fun n => (place + 4 + 4 * count : Nat) + signed32 n), bytes)
  | .method => readToken tokens.method? .method offset bytes
  | .signature => readToken tokens.signature? .signature offset bytes
  | .field | .typeName | .token | .text => readPlain 4 (fun n => .token (UInt32.ofNat n)) bytes
  | .int32 => readPlain 4 (fun n => .int32 (Int32.ofNat n)) bytes
  | .int8 => readPlain 1 (fun n => .int8 (Int8.ofNat n)) bytes
  | .int64 => readPlain 8 (fun n => .int64 (Int64.ofNat n)) bytes
  | .double => readPlain 8 (fun n => .double (UInt64.ofNat n)) bytes
  | .single => readPlain 4 (fun n => .single (UInt32.ofNat n)) bytes
  | .localVar => readPlain 2 (fun n => .localVar (UInt16.ofNat n)) bytes
  | .shortLocal => readPlain 1 (fun n => .localVar (UInt16.ofNat n)) bytes
  | .argument => readPlain 2 (fun n => .argument (UInt16.ofNat n)) bytes
  | .shortArgument => readPlain 1 (fun n => .argument (UInt16.ofNat n)) bytes

/-- Reads the instruction that starts at `offset`. -/
def readInstruction (tokens : TokenTable) (offset : Nat) (bytes : List UInt8) :
    Except BinaryFault (CodedInstruction × List UInt8) := do
  let (code, afterCode) ← readOpcode offset bytes
  let place := offset + (bytes.length - afterCode.length)
  let (operand, rest) ← readOperand tokens offset place code.shape afterCode
  return (⟨offset, code, operand⟩, rest)

theorem length_of_readOpcode {offset : Nat} {bytes rest : List UInt8} {code : Opcode}
    (h : readOpcode offset bytes = .ok (code, rest)) : rest.length < bytes.length := by
  simp only [readOpcode, bind, Except.bind, pure, Except.pure] at h
  split at h
  · simp at h
  · next first hfirst =>
    have h1 := length_of_readWord hfirst
    split at h
    · split at h
      · simp at h
      · next second hsecond =>
        have h2 := length_of_readWord hsecond
        split at h
        · simp only [Except.ok.injEq, Prod.mk.injEq] at h
          obtain ⟨-, rfl⟩ := h
          omega
        · simp at h
    · split at h
      · simp only [Except.ok.injEq, Prod.mk.injEq] at h
        obtain ⟨-, rfl⟩ := h
        omega
      · simp at h

theorem length_of_readPlain {width : Nat} {operand : Nat → Operand} {bytes rest : List UInt8}
    {coded : CodedOperand} (h : readPlain width operand bytes = .ok (coded, rest)) :
    bytes.length = width + rest.length := by
  simp only [readPlain, bind, Except.bind, pure, Except.pure] at h
  split at h
  · simp at h
  · next word hword =>
    simp only [Except.ok.injEq, Prod.mk.injEq] at h
    obtain ⟨-, rfl⟩ := h
    exact length_of_readWord hword

theorem length_of_readToken {α : Type} {lookup : UInt32 → Option α} {operand : α → Operand}
    {offset : Nat} {bytes rest : List UInt8} {coded : CodedOperand}
    (h : readToken lookup operand offset bytes = .ok (coded, rest)) :
    bytes.length = 4 + rest.length := by
  simp only [readToken, bind, Except.bind, pure, Except.pure] at h
  split at h
  · simp at h
  · next word hword =>
    split at h
    · simp only [Except.ok.injEq, Prod.mk.injEq] at h
      obtain ⟨-, rfl⟩ := h
      exact length_of_readWord hword
    · simp at h

theorem length_of_readOperand {tokens : TokenTable} {offset place : Nat} {shape : OperandShape}
    {bytes rest : List UInt8} {coded : CodedOperand}
    (h : readOperand tokens offset place shape bytes = .ok (coded, rest)) :
    rest.length ≤ bytes.length := by
  cases shape <;> simp only [readOperand, bind, Except.bind, pure, Except.pure] at h
  case none => simp_all
  case method => have := length_of_readToken h; omega
  case signature => have := length_of_readToken h; omega
  case target | shortTarget =>
    split at h
    · simp at h
    · next word hword =>
      simp only [Except.ok.injEq, Prod.mk.injEq] at h
      obtain ⟨-, rfl⟩ := h
      have := length_of_readWord hword
      omega
  case switch =>
    split at h
    · simp at h
    · next word hword =>
      split at h
      · simp at h
      · next words hwords =>
        simp only [Except.ok.injEq, Prod.mk.injEq] at h
        obtain ⟨-, rfl⟩ := h
        have := length_of_readWord hword
        have := length_of_readWords hwords
        omega
  all_goals
    have := length_of_readPlain h
    omega

theorem length_of_readInstruction {tokens : TokenTable} {offset : Nat} {bytes rest : List UInt8}
    {i : CodedInstruction} (h : readInstruction tokens offset bytes = .ok (i, rest)) :
    rest.length < bytes.length := by
  simp only [readInstruction, bind, Except.bind, pure, Except.pure] at h
  split at h
  · simp at h
  · next code hcode =>
    split at h
    · simp at h
    · next operand hoperand =>
      simp only [Except.ok.injEq, Prod.mk.injEq] at h
      obtain ⟨-, rfl⟩ := h
      have := length_of_readOpcode hcode
      have := length_of_readOperand hoperand
      omega

/-- Reads the instructions from `offset` to the end of the code. -/
def readCodeFrom (tokens : TokenTable) (offset : Nat) (bytes : List UInt8) :
    Except BinaryFault (List CodedInstruction) :=
  if bytes.isEmpty then .ok []
  else match _h : readInstruction tokens offset bytes with
    | .error fault => .error fault
    | .ok (i, rest) => do
      let instructions ← readCodeFrom tokens (offset + (bytes.length - rest.length)) rest
      return i :: instructions
termination_by bytes.length
decreasing_by exact length_of_readInstruction ‹_›

/-- Reads a code stream. -/
def readCode (tokens : TokenTable) (bytes : List UInt8) :
    Except BinaryFault (List CodedInstruction) :=
  readCodeFrom tokens 0 bytes

/-- The instruction that starts at a byte offset. -/
def findStart? (starts : List CodedInstruction) (offset : Int) : Option InstructionId :=
  starts.findIdx? fun i => (i.offset : Int) == offset

/-- The operand with its offsets replaced by the instructions that start there. -/
def CodedOperand.link (starts : List CodedInstruction) : CodedOperand → Operand
  | plain operand => operand
  | branch offset => .target (findStart? starts offset)
  | switch offsets => .switch (offsets.map (findStart? starts))

/-- The instructions with their branch targets named. -/
def link (starts : List CodedInstruction) : List Instruction :=
  starts.map fun i =>
    { code := i.code, operand := i.operand.link starts, offset := UInt32.ofNat i.offset }

end Binary

end PushGuard
