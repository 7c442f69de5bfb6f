import PushGuard.Decimal.Reading
import PushGuard.Instruction
import PushGuard.Listing.Callee

/-!
# Reading operands

The operand of an instruction is read by the shape that its opcode asks for.  Labels are not read
here: their meaning depends on the rest of the method.
-/

namespace PushGuard.Listing

open Text

/-- The number in 64 bits, if it fits there. -/
def int64? (n : Int) : Option Int64 :=
  if -0x8000000000000000 ≤ n ∧ n < 0x8000000000000000 then some (Int64.ofInt n) else none

/-- Reads a number of 64 bits: decimal digits, or `0x` and hexadecimal ones.  The digits may bring a
sign of their own. -/
def magnitude? (digits : List Char) : Option Int64 :=
  match after? "0x".toList digits with
  | some hexDigits => (signedDigits? 16 hexDigits).bind int64?
  | none => (signedDigits? 10 digits).bind int64?

/-- Reads an integer, a number behind a minus sign or without one.  The opposite is taken in 64 bits,
where the least number is its own. -/
def integer? (text : List Char) : Option Int64 :=
  match text with
  | '-' :: digits => (magnitude? digits).map fun n => -n
  | digits => magnitude? digits

/-- Reads an integer from `low` to `high`. -/
def readInteger (low high : Int) (text : List Char) : Except OperandFault Int :=
  match integer? text with
  | none => .error (.notAnInteger (String.ofList text))
  | some n =>
    if low ≤ n.toInt ∧ n.toInt ≤ high then .ok n.toInt else .error (.outOfRange (String.ofList text))

/-- Reads an index of a variable or an argument. -/
def readIndex (text : List Char) : Except OperandFault UInt16 := do
  let n ← readInteger 0 0xFFFF text
  return UInt16.ofNat n.toNat

/-- Reads a byte, signed or not. -/
def readByte (text : List Char) : Except OperandFault Int8 := do
  let n ← readInteger (-0x8000000000000000) 0x7FFFFFFFFFFFFFFF text
  if -128 ≤ n ∧ n ≤ 255 then return Int8.ofInt n else .error (.notAByte (String.ofList text))

/-- The character that an escape stands for. -/
def escaped? (c : Char) : Option Char :=
  if c = 'n' then some '\n'
  else if c = 't' then some '\t'
  else if c = 'r' then some '\r'
  else if c = '0' then some '\x00'
  else if c = '\\' ∨ c = '"' then some c
  else none

/-- Replaces the escapes in a string literal. -/
def unescape : List Char → Except OperandFault (List Char)
  | [] => .ok []
  | '\\' :: s =>
    match s with
    | [] => .error .openEscape
    | c :: rest =>
      match escaped? c with
      | none => .error (.unknownEscape c)
      | some d => do
        let tail ← unescape rest
        return d :: tail
  | c :: s => do
    let tail ← unescape s
    return c :: tail

/-- Reads a string literal. -/
def readString (text : List Char) : Except OperandFault String :=
  match (after? ['"'] text).bind (before? '"') with
  | none => .error (.notAString (String.ofList text))
  | some inside => do
    let value ← unescape inside
    return String.ofList value

/-- Reads the bits of a floating point number. -/
def readFloat (f : FloatFormat) (text : List Char) : Except OperandFault Nat :=
  match f.read? text with
  | some bits => .ok bits
  | none => .error (.notAFloat (String.ofList text))

/-- Reads the operand of a given shape. -/
def readOperand (shape : OperandShape) (text : List Char) : Except OperandFault Operand :=
  match shape with
  | .method => (readMethod text).map .method
  | .signature => (readSignature text).map .signature
  | .field | .typeName | .token => .ok (.symbol (String.ofList text))
  | .text => (readString text).map .text
  | .int32 => (readInteger (-0x80000000) 0x7FFFFFFF text).map fun n => .int32 (Int32.ofInt n)
  | .int8 => (readByte text).map .int8
  | .int64 => (readInteger (-0x8000000000000000) 0x7FFFFFFFFFFFFFFF text).map fun n => .int64 (Int64.ofInt n)
  | .double => (readFloat .double text).map fun bits => .double (UInt64.ofNat bits)
  | .single => (readFloat .single text).map fun bits => .single (UInt32.ofNat bits)
  | .localVar | .shortLocal => (readIndex text).map .localVar
  | .argument | .shortArgument => (readIndex text).map .argument
  | .none | .target | .shortTarget | .switch => .error .notReadable

end PushGuard.Listing
