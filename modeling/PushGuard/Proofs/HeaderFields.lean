import Mathlib.Tactic.MkIffOfInductiveProp
import PushGuard.Proofs.CodeStream

/-!
# Fields of a fat header

Besides the size of the code, a fat header says how long it is, how high the stack may grow, which
types the locals have and whether they start as zeros.  The last three say nothing about where the
parts of the body are.  They are ignored if the header gives itself its twelve bytes or more, and only
then (`header_fields_ignored_iff`): the length of the header is believed, so the code of a body with a
shorter one starts among these fields.

What is read depends on the header and on the bytes from the start of the code on, and on no others
(`read_congr`).
-/

namespace PushGuard.Binary

/-- Both start with a fat header, and they differ only in its fields that say nothing about the
structure of the body: a bit of the first byte for the zeros, the bytes 2 and 3 for the height of the
stack, the bytes 8 to 11 for the types of the locals. -/
@[mk_iff]
structure SameStructure (a b : List UInt8) : Prop where
  length_eq : a.length = b.length
  fat : a.headD 0 &&& 0x03 = 0x03
  flags : a.headD 0 &&& 0xEF = b.headD 0 &&& 0xEF
  headerLength : a[1]? = b[1]?
  codeSize : (a.drop 4).take 4 = (b.drop 4).take 4
  behind : a.drop 12 = b.drop 12

instance (a b : List UInt8) : Decidable (SameStructure a b) :=
  decidable_of_iff _ (sameStructure_iff a b).symm

/-- The length of a fat header in words of four bytes, as it gives it. -/
def headerWords (bytes : List UInt8) : Nat := (bytes.getD 1 0).toNat / 16

/-! ## The header -/

/-- A word is there as a whole and the rest is read behind it, or bytes are missing. -/
theorem readWord_bind {α : Type} (width : Nat) (bytes : List UInt8)
    (next : Nat × List UInt8 → Except BinaryFault α) :
    readWord width bytes >>= next =
      if width ≤ bytes.length then next (wordAt width 0 bytes, bytes.drop width)
      else .error .truncated := by
  split
  · next hle =>
    rw [readWord_eq_ok_iff.2 ⟨hle, rfl, rfl⟩]
    rfl
  · next hlt =>
    rw [readWord_of_lt (Nat.lt_of_not_le hlt)]
    rfl

/-- Of the first two bytes, the upper half of the second gives the length of the header. -/
theorem wordAt_div (first second : UInt8) (rest : List UInt8) :
    wordAt 2 0 (first :: second :: rest) / 0x1000 = second.toNat / 16 := by
  have hfirst := first.toNat_lt
  show (first.toNat + 256 * (second.toNat + 256 * 0)) / 0x1000 = second.toNat / 16
  omega

/-- A fat header is there as a whole, or bytes are missing. -/
theorem readHeader_of_fat {bytes : List UInt8} (h : bytes.headD 0 &&& 0x03 = 0x03) :
    readHeader bytes = if 12 ≤ bytes.length then
        .ok ⟨headerWords bytes * 4, wordAt 4 4 bytes, bytes.headD 0 &&& 0x08 != 0⟩
      else .error .truncated := by
  match bytes, h with
  | [], h => exact absurd h (by decide)
  | [first], h =>
    have hfat : first &&& 0x03 = 0x03 := h
    rw [readHeader, if_neg (by rw [hfat]; decide), if_pos hfat]
    rfl
  | first :: second :: rest, h =>
    have hfat : first &&& 0x03 = 0x03 := h
    rw [readHeader, if_neg (by rw [hfat]; decide), if_pos hfat]
    simp only [readWord_bind, wordAt_div, wordAt_drop, List.length_drop]
    by_cases hlong : 12 ≤ (first :: second :: rest).length
    · rw [if_pos hlong, if_pos (by omega), if_pos (by omega), if_pos (by omega), if_pos (by omega)]
      rfl
    · rw [if_neg hlong]
      split_ifs
      · omega
      all_goals rfl

namespace SameStructure

variable {a b : List UInt8}

/-- A mask that does not select the bit for the zeros selects the same of both first bytes. -/
theorem flags_and (h : SameStructure a b) {mask : UInt8} (hmask : 0xEF &&& mask = mask) :
    a.headD 0 &&& mask = b.headD 0 &&& mask := by
  rw [← hmask, ← UInt8.and_assoc, ← UInt8.and_assoc, h.flags]

theorem headerWords_eq (h : SameStructure a b) : headerWords a = headerWords b := by
  unfold headerWords
  rw [List.getD_eq_getElem?_getD, List.getD_eq_getElem?_getD, h.headerLength]

theorem readHeader_eq (h : SameStructure a b) : readHeader a = readHeader b := by
  have hfat : b.headD 0 &&& 0x03 = 0x03 := by
    rw [← h.flags_and (by decide)]
    exact h.fat
  have hsize : wordAt 4 4 a = wordAt 4 4 b := congrArg littleEndian h.codeSize
  rw [readHeader_of_fat h.fat, readHeader_of_fat hfat, h.length_eq, h.headerWords_eq, hsize,
    h.flags_and (by decide)]

end SameStructure

/-! ## The body -/

theorem slice_congr {a b : List UInt8} {front start : Nat} (hlength : a.length = b.length)
    (hbehind : a.drop front = b.drop front) (hle : front ≤ start) (size : Nat) :
    slice start size a = slice start size b := by
  have hdrop : a.drop start = b.drop start := by
    rw [← Nat.add_sub_of_le hle, ← List.drop_drop, ← List.drop_drop, hbehind]
  unfold slice
  rw [hlength, hdrop]

/-- What is read depends on the header, and on the bytes from the start of the code on. -/
theorem read_congr (tokens : TokenTable) (name : String) {a b : List UInt8}
    (hlength : a.length = b.length) (hheader : readHeader a = readHeader b)
    (hbehind : ∀ header, readHeader a = .ok header →
      a.drop header.codeStart = b.drop header.codeStart) :
    read tokens name a = read tokens name b := by
  unfold read
  rw [← hheader]
  cases hread : readHeader a with
  | error fault => rfl
  | ok header =>
    have hdrop := hbehind header hread
    have hcode := slice_congr hlength hdrop (Nat.le_refl _) header.codeSize
    have hhandlers : ∀ starts,
        readHandlers tokens header starts a = readHandlers tokens header starts b := by
      intro starts
      have hstart : header.codeStart ≤ align4 (header.codeStart + header.codeSize) :=
        Nat.le_trans (Nat.le_add_right _ _) (le_align4 _)
      simp only [readHandlers, hlength, slice_congr hlength hdrop hstart]
    simp only [bind, Except.bind, hcode, hhandlers]

theorem SameStructure.read_eq {a b : List UInt8} (h : SameStructure a b) (hlong : 3 ≤ headerWords a)
    (tokens : TokenTable) (name : String) : read tokens name a = read tokens name b := by
  apply read_congr tokens name h.length_eq h.readHeader_eq
  intro header hheader
  rw [readHeader_of_fat h.fat] at hheader
  split at hheader
  · obtain rfl := Except.ok.inj hheader
    have hstart : headerWords a * 4 = 12 + (headerWords a * 4 - 12) := by omega
    show a.drop (headerWords a * 4) = b.drop (headerWords a * 4)
    rw [hstart, ← List.drop_drop, ← List.drop_drop, h.behind]
  · cases hheader

/-- A header that gives itself so many words, fewer than it has.  The code is what stands behind these
words, up to the end of the header. -/
def shortHeader (words : Nat) (locals : UInt8) : List UInt8 :=
  [0x03, UInt8.ofNat (16 * words), 0x00, 0x00, UInt8.ofNat (12 - 4 * words), 0x00, 0x00, 0x00,
    locals, 0x00, 0x00, 0x00]

/-- The types of the locals are read as an instruction, `nop` or `ret`. -/
theorem read_shortHeader_ne : ∀ words < 3,
    SameStructure (shortHeader words 0x00) (shortHeader words 0x2A) ∧
      headerWords (shortHeader words 0x00) = words ∧
      read noTokens "M" (shortHeader words 0x00) ≠ read noTokens "M" (shortHeader words 0x2A) := by
  decide +kernel

/-- **Which headers hide their fields.**  Fields of a fat header that say nothing about the structure of
the body have no influence on what is read, be it a body or a fault, exactly if the header gives itself
three words or more. -/
theorem header_fields_ignored_iff (words : Nat) :
    (∀ tokens name a b, SameStructure a b → headerWords a = words →
      read tokens name a = read tokens name b) ↔ 3 ≤ words := by
  constructor
  · intro hsame
    apply Nat.le_of_not_lt
    intro hshort
    obtain ⟨hstructure, hwords, hne⟩ := read_shortHeader_ne words hshort
    exact hne (hsame _ _ _ _ hstructure hwords)
  · rintro hlong tokens name a b h rfl
    exact h.read_eq hlong tokens name

/-- In a body whose header gives itself two words, the types of the locals are the code. -/
theorem locals_read_as_code :
    SameStructure (shortHeader 2 0x00) (shortHeader 2 0x2A) ∧
      read noTokens "M" (shortHeader 2 0x00) = .ok ⟨"M", [{ code := .nop, offset := 0 },
        { code := .nop, offset := 1 }, { code := .nop, offset := 2 }, { code := .nop, offset := 3 }],
        []⟩ ∧
      read noTokens "M" (shortHeader 2 0x2A) = .ok ⟨"M", [{ code := .ret, offset := 0 },
        { code := .nop, offset := 1 }, { code := .nop, offset := 2 }, { code := .nop, offset := 3 }],
        []⟩ ∧
      ¬ ∀ tokens name a b, SameStructure a b → read tokens name a = read tokens name b := by
  obtain ⟨hstructure, -, hne⟩ := read_shortHeader_ne 2 (by decide)
  exact ⟨hstructure, by decide +kernel, by decide +kernel,
    fun hsame => hne (hsame _ _ _ _ hstructure)⟩

end PushGuard.Binary
