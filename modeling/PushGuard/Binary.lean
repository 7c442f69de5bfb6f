import PushGuard.Binary.Code
import PushGuard.Binary.Sections

/-!
# The binary form of a body

A body is a header, the code stream and, if the header says so, exception sections.  A tiny header
is one byte with the size of the code; a fat one has twelve bytes and says where the code starts.
-/

namespace PushGuard.Binary

/-- What a header says about the rest of the bytes. -/
structure Header where
  codeStart : Nat
  codeSize : Nat
  moreSections : Bool
  deriving DecidableEq

def readHeader (bytes : List UInt8) : Except BinaryFault Header :=
  match bytes with
  | [] => .error .truncated
  | first :: _ =>
    if first &&& 0x3 = 0x2 then .ok ⟨1, first.toNat / 4, false⟩
    else if first &&& 0x3 = 0x3 then do
      let (flags, bytes) ← readWord 2 bytes
      let (_maxStack, bytes) ← readWord 2 bytes
      let (codeSize, bytes) ← readWord 4 bytes
      let (_locals, _) ← readWord 4 bytes
      return ⟨flags / 0x1000 * 4, codeSize, first &&& 0x8 != 0⟩
    else .error (.invalidHeader first)

/-- The handler kind that the flags of a clause name. -/
def handlerKind? (flags : Nat) : Option HandlerKind :=
  match flags with
  | 0 => some .typed
  | 1 => some .filter
  | 2 => some .cleanup
  | 4 => some .fault
  | _ => none

namespace Clause

/-- The end of a block; offsets have 32 bits, so a block that ends past them ends nowhere. -/
def endOf? (starts : List CodedInstruction) (offset length : Nat) : Option InstructionId :=
  if offset + length < UInt32.size then findStart? starts (offset + length : Nat) else none

/-- The handler that a clause describes. -/
def toHandler (tokens : TokenTable) (starts : List CodedInstruction) (c : Clause) :
    Except BinaryFault Handler :=
  match handlerKind? c.flags with
  | none => .error (.invalidHandler c.flags)
  | some kind => .ok {
      kind
      tryStart := findStart? starts c.tryOffset
      tryEnd := endOf? starts c.tryOffset c.tryLength
      handlerStart := findStart? starts c.handlerOffset
      handlerEnd := endOf? starts c.handlerOffset c.handlerLength
      filterStart := if kind = .filter then findStart? starts c.detail else none
      catchType := if kind = .typed then tokens.typeName? (UInt32.ofNat c.detail) else none }

end Clause

/-- The bytes from `start` on, `size` of them. -/
def slice (start size : Nat) (bytes : List UInt8) : Except BinaryFault (List UInt8) :=
  if start + size ≤ bytes.length then .ok ((bytes.drop start).take size) else .error .truncated

/-- The handlers that the sections behind the code describe. -/
def readHandlers (tokens : TokenTable) (header : Header) (starts : List CodedInstruction)
    (bytes : List UInt8) : Except BinaryFault (List Handler) :=
  if header.moreSections then do
    let start := align4 (header.codeStart + header.codeSize)
    let sections ← slice start (bytes.length - start) bytes
    let clauses ← readSections sections
    clauses.mapM (Clause.toHandler tokens starts)
  else .ok []

/-- Reads the body of a method. -/
def read (tokens : TokenTable) (name : String) (bytes : List UInt8) : Except BinaryFault Body := do
  let header ← readHeader bytes
  let code ← slice header.codeStart header.codeSize bytes
  let starts ← readCode tokens code
  let handlers ← readHandlers tokens header starts bytes
  return ⟨name, link starts, handlers⟩

end PushGuard.Binary
