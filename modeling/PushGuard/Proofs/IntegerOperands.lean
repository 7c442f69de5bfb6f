import Mathlib.Algebra.Order.Ring.Int
import PushGuard.Proofs.IntegerText
import PushGuard.Proofs.OpcodeTable

/-!
# Integer operands

The operand of an instruction that loads a number, or names a variable or an argument, is an integer.
Every text of this integer is read as the operand again, whatever its width (`readOperand_of_denotes`);
among these texts are the one that reports show and the hexadecimal digits.  Only the least integer of 64
bits has no text.
-/

namespace PushGuard

/-- A minus sign or none, then `0x` and lower case hexadecimal digits. -/
def Text.signedHex : Int → String
  | .ofNat n => "0x" ++ hex 0 n
  | .negSucc n => "-" ++ "0x" ++ hex 0 (n + 1)

/-- The integer that the operand is. -/
def Operand.number? : Operand → Option Int
  | .int8 value => some value.toInt
  | .int32 value => some value.toInt
  | .int64 value => some value.toInt
  | .localVar index | .argument index => some index.toNat
  | _ => .none

/-- An integer is shown in decimal digits. -/
theorem Operand.textWith_of_number? {operand : Operand} {n : Int} (hn : operand.number? = some n)
    (targetText : Option InstructionId → String) :
    operand.textWith targetText = " " ++ Text.signedDecimal n := by
  cases operand with
  | int8 value | int32 value | int64 value =>
    obtain rfl := Option.some.inj hn
    rfl
  | localVar index | argument index =>
    obtain rfl := Option.some.inj hn
    rfl
  | _ => cases hn

namespace Listing

open Text

theorem denotes_signedDecimal (n : Int) : Denotes (signedDecimal n).toList n := by
  have hdigits : ∀ k : Nat, Unsigned (decimal k).toList k := by
    intro k
    rw [decimal, String.toList_ofList]
    exact .decimal (numeral_toDigits (by decide) (by decide) k)
  cases n with
  | ofNat k => exact .plain (hdigits k)
  | negSucc k =>
    rw [signedDecimal, String.toList_append]
    exact .minus (hdigits (k + 1))

theorem denotes_signedHex (n : Int) : Denotes (signedHex n).toList n := by
  have hdigits : ∀ k : Nat, Unsigned ("0x" ++ hex 0 k).toList k := by
    intro k
    rw [String.toList_append]
    exact .hexadecimal ((digits?_eq_some_iff (by decide)).1 (digits?_hex 0 k))
  cases n with
  | ofNat k => exact .plain (hdigits k)
  | negSucc k =>
    rw [signedHex, String.append_assoc, String.toList_append]
    exact .minus (hdigits (k + 1))

theorem readIndex_of_denotes {text : List Char} {index : UInt16} (h : Denotes text index.toNat) :
    readIndex text = .ok index := by
  have hlt := index.toNat_lt
  unfold readIndex
  rw [readInteger_of_denotes h (by omega) (by omega)]
  show Except.ok (UInt16.ofNat index.toNat) = _
  rw [UInt16.ofNat_toNat]

theorem readByte_of_denotes {text : List Char} {value : Int8} (h : Denotes text value.toInt) :
    readByte text = .ok value := by
  have hlow := value.le_toInt
  have hhigh := value.toInt_lt
  unfold readByte
  rw [readInteger_of_denotes h (by omega) (by omega)]
  show (if -128 ≤ value.toInt ∧ value.toInt ≤ 255 then _ else _) = _
  rw [if_pos (by omega), Int8.ofInt_toInt]
  rfl

/-- Each shape takes the integers of its operands, all but the least one of 64 bits. -/
theorem readOperand_of_denotes {shape : OperandShape} {operand : Operand} {n : Int}
    (hshape : shape.admits operand = true) (hn : operand.number? = some n) {text : List Char}
    (htext : Denotes text n) :
    readOperand shape text =
      if n = -2 ^ 63 then .error (.notAnInteger (String.ofList text)) else .ok operand := by
  cases operand with
  | int8 value =>
    obtain rfl : value.toInt = n := Option.some.inj hn
    have hlow := value.le_toInt
    cases shape with
    | int8 =>
      rw [if_neg (by omega), readOperand, readByte_of_denotes htext]
      rfl
    | _ => cases hshape
  | int32 value =>
    obtain rfl : value.toInt = n := Option.some.inj hn
    have hlow := value.le_toInt
    have hhigh := value.toInt_lt
    cases shape with
    | int32 =>
      rw [if_neg (by omega), readOperand, readInteger_of_denotes htext (by omega) (by omega)]
      show Except.ok (Operand.int32 (Int32.ofInt value.toInt)) = _
      rw [Int32.ofInt_toInt]
    | _ => cases hshape
  | int64 value =>
    obtain rfl : value.toInt = n := Option.some.inj hn
    have hlow := value.le_toInt
    have hhigh := value.toInt_lt
    cases shape with
    | int64 =>
      rw [readOperand]
      split
      · next hleast =>
        rw [readInteger, integer?_of_denotes htext, if_neg (by omega)]
        rfl
      · rw [readInteger_of_denotes htext (by omega) (by omega)]
        show Except.ok (Operand.int64 (Int64.ofInt value.toInt)) = _
        rw [Int64.ofInt_toInt]
    | _ => cases hshape
  | localVar index =>
    obtain rfl : (index.toNat : Int) = n := Option.some.inj hn
    cases shape with
    | localVar | shortLocal =>
      rw [if_neg (by omega), readOperand, readIndex_of_denotes htext]
      rfl
    | _ => cases hshape
  | argument index =>
    obtain rfl : (index.toNat : Int) = n := Option.some.inj hn
    cases shape with
    | argument | shortArgument =>
      rw [if_neg (by omega), readOperand, readIndex_of_denotes htext]
      rfl
    | _ => cases hshape
  | _ => cases hn

/-- **Integer operands are read back**, from the text that reports show of them, from their hexadecimal
digits and from any other text of the integer.  The one exception is the least integer of 64 bits, which
is refused in all its texts. -/
theorem integer_operand_read_back (i : Instruction) (n : Int)
    (hshape : i.code.shape.admits i.operand = true) (hn : i.operand.number? = some n) :
    (∃ shown : String, i.text = offsetText i.offset.toNat ++ ": " ++ i.code.mnemonic ++ (" " ++ shown) ∧
      (readOperand i.code.shape shown.toList = .ok i.operand ↔ n ≠ -2 ^ 63)) ∧
    (readOperand i.code.shape (signedHex n).toList = .ok i.operand ↔ n ≠ -2 ^ 63) ∧
    ∀ text, Denotes text n → readOperand i.code.shape text =
      if n = -2 ^ 63 then .error (.notAnInteger (String.ofList text)) else .ok i.operand := by
  have hread : ∀ text, Denotes text n → readOperand i.code.shape text =
      if n = -2 ^ 63 then .error (.notAnInteger (String.ofList text)) else .ok i.operand :=
    fun text htext => readOperand_of_denotes hshape hn htext
  have hiff : ∀ text, Denotes text n →
      (readOperand i.code.shape text = .ok i.operand ↔ n ≠ -2 ^ 63) := by
    intro text htext
    rw [hread text htext]
    split
    · next hleast => exact ⟨nofun, fun hother => absurd hleast hother⟩
    · next hother => exact ⟨fun _ => hother, fun _ => rfl⟩
  refine ⟨⟨signedDecimal n, ?_, hiff _ (denotes_signedDecimal n)⟩, hiff _ (denotes_signedHex n), hread⟩
  rw [Instruction.text, i.operand.textWith_of_number? hn]

/-- The least byte, and an index of 16 bits with the most digits. -/
theorem extreme_operands_read_back :
    readOperand .int8 "-0x80".toList = .ok (.int8 (-128)) ∧
    readOperand .shortLocal "0xffff".toList = .ok (.localVar 65535) ∧
    readOperand .int64 "-009223372036854775807".toList = .ok (.int64 (-9223372036854775807)) := by
  have hbyte := integer_operand_read_back { code := .ldcI4S, operand := .int8 (-128) } (-128) rfl rfl
  have hindex := integer_operand_read_back { code := .ldlocS, operand := .localVar 65535 } 65535 rfl rfl
  have hlong := integer_operand_read_back
    { code := .ldcI8, operand := .int64 (-9223372036854775807) } (-9223372036854775807) rfl rfl
  have hdigits : Numeral 10 "009223372036854775807".toList 9223372036854775807 :=
    (digits?_eq_some_iff (by decide)).1 (by decide +kernel)
  exact ⟨hbyte.2.1.2 (by decide), hindex.2.1.2 (by decide), hlong.2.2 _ (.minus (.decimal hdigits))⟩

/-- The least integer of 64 bits as an operand. -/
def loadLeast : Instruction := { code := .ldcI8, operand := .int64 Int64.minValue }

/-- It is shown in digits that are not read back, nor are the hexadecimal ones. -/
theorem loadLeast_not_read_back :
    loadLeast.text = "IL_0000: ldc.i8 -9223372036854775808" ∧
    readOperand loadLeast.code.shape "-9223372036854775808".toList =
      .error (.notAnInteger "-9223372036854775808") ∧
    readOperand loadLeast.code.shape "-0x8000000000000000".toList =
      .error (.notAnInteger "-0x8000000000000000") := by
  refine ⟨?_, ?_, ?_⟩ <;> decide +kernel

end Listing

end PushGuard
