import Mathlib.Algebra.Order.Ring.Int
import PushGuard.Binary.Bytes
import PushGuard.Proofs.Results

/-!
# Numbers as bytes

Writing numbers into a byte stream, low byte first.  A signed number is written as its remainder by
the number of words of that width.  What is written is read back, whatever follows it
(`readWord_intBytes`, `readWords_intBytes`), and machine numbers survive the two directions.  What has
been read stood at the front of the bytes (`readWord_eq_ok_iff`, `readWords_eq_ok`).
-/

namespace PushGuard.Binary

/-- The number in `width` bytes, the low byte first. -/
def wordBytes : (width : Nat) → (n : Nat) → List UInt8
  | 0, _ => []
  | width + 1, n => UInt8.ofNat n :: wordBytes width (n / 256)

/-- The signed number in `width` bytes. -/
def intBytes (width : Nat) (n : Int) : List UInt8 := wordBytes width (n % 256 ^ width).toNat

@[simp] theorem length_wordBytes (width n : Nat) : (wordBytes width n).length = width := by
  induction width generalizing n with
  | zero => rfl
  | succ width ih => rw [wordBytes, List.length_cons, ih]

@[simp] theorem length_intBytes (width : Nat) (n : Int) : (intBytes width n).length = width :=
  length_wordBytes _ _

@[simp] theorem length_flatMap_intBytes (width : Nat) (ns : List Int) :
    (ns.flatMap (intBytes width)).length = width * ns.length := by
  induction ns with
  | nil => rfl
  | cons n ns ih =>
    rw [List.flatMap_cons, List.length_append, ih, length_intBytes, List.length_cons,
      Nat.mul_succ, Nat.add_comm]

theorem littleEndian_wordBytes (width n : Nat) :
    littleEndian (wordBytes width n) = n % 256 ^ width := by
  induction width generalizing n with
  | zero => simp [wordBytes, littleEndian, Nat.mod_one]
  | succ width ih =>
    rw [wordBytes, littleEndian, ih, UInt8.toNat_ofNat']
    have hsplit : n % 256 ^ (width + 1) = n % 256 + 256 * (n / 256 % 256 ^ width) := by
      rw [Nat.pow_succ', Nat.mod_mul]
    exact hsplit.symm

theorem littleEndian_intBytes (width : Nat) (n : Int) :
    littleEndian (intBytes width n) = (n % 256 ^ width).toNat := by
  have hpos : (0 : Int) < 256 ^ width := Int.pow_pos (by decide)
  have hnonneg := Int.emod_nonneg n (Int.ne_of_gt hpos)
  have hlt := Int.emod_lt_of_pos n hpos
  rw [intBytes, littleEndian_wordBytes]
  apply Nat.mod_eq_of_lt
  rw [Int.toNat_lt hnonneg, Int.natCast_pow]
  exact hlt

theorem readWord_append (word rest : List UInt8) :
    readWord word.length (word ++ rest) = .ok (littleEndian word, rest) := by
  unfold readWord
  simp only [List.take_left, List.drop_left, if_true]

theorem readWord_intBytes (width : Nat) (n : Int) (rest : List UInt8) :
    readWord width (intBytes width n ++ rest) = .ok ((n % 256 ^ width).toNat, rest) := by
  have h := readWord_append (intBytes width n) rest
  rwa [length_intBytes, littleEndian_intBytes] at h

theorem readWords_intBytes (ns : List Int) (rest : List UInt8) :
    readWords ns.length (ns.flatMap (intBytes 4) ++ rest) =
      .ok (ns.map fun n => (n % 256 ^ 4).toNat, rest) := by
  induction ns with
  | nil => rfl
  | cons n ns ih =>
    rw [List.length_cons, readWords, List.flatMap_cons, List.append_assoc, readWord_intBytes]
    show (readWords ns.length (ns.flatMap (intBytes 4) ++ rest) >>= _) = _
    rw [ih]
    rfl

/-! ## What has been read -/

/-- The number in the `width` bytes at a place. -/
def wordAt (width place : Nat) (bytes : List UInt8) : Nat :=
  littleEndian ((bytes.drop place).take width)

/-- The signed number in the `width` bytes at a place. -/
def signedAt (width place : Nat) (bytes : List UInt8) : Int :=
  (wordAt width place bytes : Int).bmod (256 ^ width)

theorem littleEndian_lt (bytes : List UInt8) : littleEndian bytes < 256 ^ bytes.length := by
  induction bytes with
  | nil => exact Nat.one_pos
  | cons byte rest ih =>
    have hbyte := byte.toNat_lt
    rw [littleEndian, List.length_cons, Nat.pow_succ]
    omega

theorem wordAt_lt (width place : Nat) (bytes : List UInt8) :
    wordAt width place bytes < 256 ^ width := by
  have hlength : ((bytes.drop place).take width).length ≤ width := by
    rw [List.length_take]
    exact Nat.min_le_left _ _
  exact Nat.lt_of_lt_of_le (littleEndian_lt _) (Nat.pow_le_pow_right (by decide) hlength)

theorem wordAt_drop (width place skipped : Nat) (bytes : List UInt8) :
    wordAt width place (bytes.drop skipped) = wordAt width (skipped + place) bytes := by
  unfold wordAt
  rw [List.drop_drop]

/-- A number is read off the front of bytes that are long enough. -/
theorem readWord_eq_ok_iff {width n : Nat} {bytes rest : List UInt8} :
    readWord width bytes = .ok (n, rest) ↔
      width ≤ bytes.length ∧ n = wordAt width 0 bytes ∧ rest = bytes.drop width := by
  unfold readWord wordAt
  by_cases hle : width ≤ bytes.length
  · simp [hle, eq_comm]
  · simp [hle]

theorem readWord_of_lt {width : Nat} {bytes : List UInt8} (h : bytes.length < width) :
    readWord width bytes = .error .truncated := by
  have hshort : (bytes.take width).length ≠ width := by
    rw [List.length_take]
    omega
  unfold readWord
  rw [if_neg hshort]

theorem readWords_eq_ok {count : Nat} {ns : List Nat} {bytes rest : List UInt8}
    (h : readWords count bytes = .ok (ns, rest)) :
    4 * count ≤ bytes.length ∧ rest = bytes.drop (4 * count) ∧
      ns = (List.range count).map fun m => wordAt 4 (4 * m) bytes := by
  induction count generalizing bytes ns with
  | zero =>
    obtain ⟨rfl, rfl⟩ := Prod.mk.inj (Except.ok.inj h)
    exact ⟨Nat.zero_le _, rfl, rfl⟩
  | succ count ih =>
    rw [readWords, bind_eq_ok_iff] at h
    obtain ⟨⟨word, bytes'⟩, hword, h⟩ := h
    obtain ⟨⟨words, rest'⟩, hwords, h⟩ := (bind_eq_ok_iff _ _ _).1 h
    obtain ⟨rfl, rfl⟩ := Prod.mk.inj (Except.ok.inj h)
    obtain ⟨hle, rfl, rfl⟩ := readWord_eq_ok_iff.1 hword
    obtain ⟨hle', rfl, rfl⟩ := ih hwords
    rw [List.length_drop] at hle'
    refine ⟨by omega, ?_, ?_⟩
    · rw [List.drop_drop, Nat.mul_succ, Nat.add_comm]
    · rw [List.range_succ_eq_map, List.map_cons, List.map_map]
      simp only [wordAt_drop, Function.comp_def, Nat.mul_zero, Nat.mul_succ, Nat.add_comm]

/-! ## Machine numbers -/

theorem bmod_toNat_emod (size : Nat) (hsize : 0 < size) {n : Int} (hlow : -(size / 2 : Int) ≤ n)
    (hhigh : n < (size + 1 : Int) / 2) : ((n % size).toNat : Int).bmod size = n := by
  rw [Int.toNat_of_nonneg (Int.emod_nonneg n (by omega)), Int.emod_bmod]
  exact Int.bmod_eq_of_le hlow hhigh

theorem toInt_int8_ofNat {n : Int} (hlow : -2 ^ 7 ≤ n) (hhigh : n < 2 ^ 7) :
    (Int8.ofNat (n % 256 ^ 1).toNat).toInt = n := by
  rw [Int8.toInt_ofNat']
  exact bmod_toNat_emod 256 (by decide) (by omega) (by omega)

theorem toInt_int32_ofNat {n : Int} (hlow : -2 ^ 31 ≤ n) (hhigh : n < 2 ^ 31) :
    (Int32.ofNat (n % 256 ^ 4).toNat).toInt = n := by
  rw [Int32.toInt_ofNat']
  exact bmod_toNat_emod 4294967296 (by decide) (by omega) (by omega)

theorem toInt_int64_ofNat {n : Int} (hlow : -2 ^ 63 ≤ n) (hhigh : n < 2 ^ 63) :
    (Int64.ofNat (n % 256 ^ 8).toNat).toInt = n := by
  rw [Int64.toInt_ofNat']
  exact bmod_toNat_emod 18446744073709551616 (by decide) (by omega) (by omega)

theorem int8_ofNat_emod (n : Int8) : Int8.ofNat (n.toInt % 256 ^ 1).toNat = n :=
  Int8.toInt_inj.1 (toInt_int8_ofNat n.le_toInt n.toInt_lt)

theorem int32_ofNat_emod (n : Int32) : Int32.ofNat (n.toInt % 256 ^ 4).toNat = n :=
  Int32.toInt_inj.1 (toInt_int32_ofNat n.le_toInt n.toInt_lt)

theorem int64_ofNat_emod (n : Int64) : Int64.ofNat (n.toInt % 256 ^ 8).toNat = n :=
  Int64.toInt_inj.1 (toInt_int64_ofNat n.le_toInt n.toInt_lt)

/-- A number that fits is its own remainder. -/
theorem toNat_emod_of_lt {width n : Nat} (h : n < 256 ^ width) :
    ((n : Int) % 256 ^ width).toNat = n := by
  have hcast : ((n % 256 ^ width : Nat) : Int) = (n : Int) % 256 ^ width := by
    rw [Int.natCast_emod, Int.natCast_pow]
    rfl
  rw [← hcast, Int.toNat_natCast, Nat.mod_eq_of_lt h]

theorem uint16_ofNat_emod {width : Nat} {n : UInt16} (h : n.toNat < 256 ^ width) :
    UInt16.ofNat ((n.toNat : Int) % 256 ^ width).toNat = n := by
  rw [toNat_emod_of_lt h, UInt16.ofNat_toNat]

theorem uint32_ofNat_emod (n : UInt32) : UInt32.ofNat ((n.toNat : Int) % 256 ^ 4).toNat = n := by
  rw [toNat_emod_of_lt n.toNat_lt, UInt32.ofNat_toNat]

theorem uint64_ofNat_emod (n : UInt64) : UInt64.ofNat ((n.toNat : Int) % 256 ^ 8).toNat = n := by
  rw [toNat_emod_of_lt n.toNat_lt, UInt64.ofNat_toNat]

end PushGuard.Binary
