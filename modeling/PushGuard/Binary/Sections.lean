import PushGuard.Binary.Bytes
import PushGuard.Body

/-!
# Exception sections

Behind the code stand one or more sections with the clauses of the exception handlers.  A section
is small or fat, which sets the widths of its fields; it says how large it is and whether another
one follows, at the next multiple of four bytes.
-/

namespace PushGuard.Binary

/-- An exception clause with byte offsets. -/
structure Clause where
  flags : Nat
  tryOffset : Nat
  tryLength : Nat
  handlerOffset : Nat
  handlerLength : Nat
  /-- The token of the caught type, or the offset of the filter. -/
  detail : Nat
  deriving DecidableEq

/-- The widths of the fields of a clause, in their order. -/
structure ClauseWidths where
  flags : Nat
  offset : Nat
  length : Nat
  detail : Nat

namespace ClauseWidths

def small : ClauseWidths := ⟨2, 2, 1, 4⟩

def fat : ClauseWidths := ⟨4, 4, 4, 4⟩

/-- Bytes of a clause. -/
def total (w : ClauseWidths) : Nat := w.flags + 2 * (w.offset + w.length) + w.detail

end ClauseWidths

def readClause (w : ClauseWidths) (bytes : List UInt8) :
    Except BinaryFault (Clause × List UInt8) := do
  let (flags, bytes) ← readWord w.flags bytes
  let (tryOffset, bytes) ← readWord w.offset bytes
  let (tryLength, bytes) ← readWord w.length bytes
  let (handlerOffset, bytes) ← readWord w.offset bytes
  let (handlerLength, bytes) ← readWord w.length bytes
  let (detail, bytes) ← readWord w.detail bytes
  return (⟨flags, tryOffset, tryLength, handlerOffset, handlerLength, detail⟩, bytes)

/-- Reads `count` clauses. -/
def readClauses (w : ClauseWidths) : (count : Nat) → List UInt8 → Except BinaryFault (List Clause)
  | 0, _ => .ok []
  | count + 1, bytes => do
    let (clause, bytes) ← readClause w bytes
    let clauses ← readClauses w count bytes
    return clause :: clauses

/-- The next multiple of four. -/
def align4 (n : Nat) : Nat := (n + 3) / 4 * 4

/-- A section as it is found. -/
structure Section where
  clauses : List Clause
  /-- Bytes of the section, its header included. -/
  size : Nat
  /-- Another section follows. -/
  more : Bool
  four_le : 4 ≤ size

/-- The clauses of a section of this size, of which the header is read. -/
def readSectionBody (kind : UInt8) (w : ClauseWidths) (size : Nat) (bytes : List UInt8) :
    Except BinaryFault Section :=
  if h : 4 ≤ size then do
    let clauses ← readClauses w ((size - 4) / w.total) bytes
    return ⟨clauses, size, kind &&& 0x80 != 0, h⟩
  else .error (.invalidSection kind)

/-- Reads the section at the start of the bytes. -/
def readSection (bytes : List UInt8) : Except BinaryFault Section :=
  match bytes with
  | [] => .error .truncated
  | kind :: rest =>
    if kind &&& 0x01 = 0 then .error (.invalidSection kind)
    else if kind &&& 0x40 ≠ 0 then do
      let (size, rest) ← readWord 3 rest
      readSectionBody kind .fat size rest
    else do
      let (size, rest) ← readWord 1 rest
      let (_, rest) ← readWord 2 rest
      readSectionBody kind .small size rest

theorem ne_nil_of_readSection {bytes : List UInt8} {s : Section}
    (h : readSection bytes = .ok s) : bytes ≠ [] := by
  rintro rfl
  simp [readSection] at h

theorem le_align4 (n : Nat) : n ≤ align4 n := by
  simp only [align4]
  omega

/-- Reads sections until one says that it is the last. -/
def readSections (bytes : List UInt8) : Except BinaryFault (List Clause) :=
  match _h : readSection bytes with
  | .error fault => .error fault
  | .ok s =>
    if s.more then do
      let clauses ← readSections (bytes.drop (align4 s.size))
      return s.clauses ++ clauses
    else .ok s.clauses
termination_by bytes.length
decreasing_by
  have := List.length_pos_iff.2 (ne_nil_of_readSection ‹_›)
  have := le_align4 s.size
  have := s.four_le
  simp only [List.length_drop]
  omega

end PushGuard.Binary
