import PushGuard.Text.Digits

/-!
# Reading bytes

Numbers stand in the byte stream with their low byte first.  A reader takes what it needs from the
front and gives back the rest.
-/

namespace PushGuard

/-- Why the binary form of a body is refused. -/
inductive BinaryFault
  | unknownOpcode (value : Nat) (offset : Nat)
  /-- The bytes end within an instruction or a section. -/
  | truncated
  | invalidHeader (header : UInt8)
  /-- A method or signature token that stands for nothing known. -/
  | unresolvedToken (token : UInt32) (offset : Nat)
  /-- A section that does not hold exception handlers, or is smaller than its own header. -/
  | invalidSection (kind : UInt8)
  | invalidHandler (flags : Nat)
  deriving DecidableEq

def BinaryFault.message : BinaryFault → String
  | unknownOpcode value offset =>
    "unknown opcode 0x" ++ Text.hex 2 value ++ " at IL_" ++ Text.hex 4 offset
  | truncated => "unexpected end of method body"
  | invalidHeader header => "invalid method body header 0x" ++ Text.hex 2 header.toNat
  | unresolvedToken token offset =>
    "unresolved token 0x" ++ Text.hex 8 token.toNat ++ " at IL_" ++ Text.hex 4 offset
  | invalidSection kind => "unsupported data section 0x" ++ Text.hex 2 kind.toNat
  | invalidHandler flags => "unknown exception clause flags 0x" ++ Text.hex 1 flags

namespace Binary

/-- The number that bytes stand for, the low byte first. -/
def littleEndian : List UInt8 → Nat
  | [] => 0
  | b :: rest => b.toNat + 256 * littleEndian rest

/-- Reads a number of `width` bytes. -/
def readWord (width : Nat) (bytes : List UInt8) : Except BinaryFault (Nat × List UInt8) :=
  let word := bytes.take width
  if word.length = width then .ok (littleEndian word, bytes.drop width) else .error .truncated

/-- Reads `count` numbers of four bytes. -/
def readWords : (count : Nat) → List UInt8 → Except BinaryFault (List Nat × List UInt8)
  | 0, bytes => .ok ([], bytes)
  | count + 1, bytes => do
    let (word, bytes) ← readWord 4 bytes
    let (words, bytes) ← readWords count bytes
    return (word :: words, bytes)

theorem length_of_readWord {width n : Nat} {bytes rest : List UInt8}
    (h : readWord width bytes = .ok (n, rest)) : bytes.length = width + rest.length := by
  simp only [readWord, List.length_take] at h
  split at h
  · simp only [Except.ok.injEq, Prod.mk.injEq] at h
    obtain ⟨-, rfl⟩ := h
    simp only [List.length_drop]
    omega
  · simp at h

theorem length_of_readWords {count : Nat} {ns : List Nat} {bytes rest : List UInt8}
    (h : readWords count bytes = .ok (ns, rest)) : bytes.length = 4 * count + rest.length := by
  induction count generalizing bytes ns with
  | zero =>
    simp only [readWords, Except.ok.injEq, Prod.mk.injEq] at h
    simp [h.2]
  | succ count ih =>
    simp only [readWords, bind, Except.bind] at h
    split at h
    · simp at h
    · next word hword =>
      split at h
      · simp at h
      · next tail htail =>
        simp only [pure, Except.pure, Except.ok.injEq, Prod.mk.injEq] at h
        obtain ⟨-, rfl⟩ := h
        have := length_of_readWord hword
        have := ih htail
        omega

end Binary

end PushGuard
