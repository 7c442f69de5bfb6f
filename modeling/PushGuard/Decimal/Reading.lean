import PushGuard.Decimal.Format
import PushGuard.Text.Digits

/-!
# Reading a floating point number

A number is a run of digits with at most one point, then an exponent if there is one.  The words
`inf`, `infinity` and `nan` are taken in any case.  The number is rounded once, from its exact
decimal value to the format.
-/

namespace PushGuard

/-- A number `count * 10 ^ place` as written. -/
structure WrittenDecimal where
  count : Nat
  place : Int

namespace WrittenDecimal

/-- Reads what may follow the digits: nothing, or an exponent. -/
def exponent? : List Char → Option Int
  | [] => some 0
  | c :: s => if c = 'e' ∨ c = 'E' then Text.signedDigits? 10 s else none

/-- Reads digits, a point and digits; one of the two runs of digits may be empty. -/
def read? (s : List Char) : Option WrittenDecimal :=
  let whole := s.takeWhile Char.isDigit
  let afterWhole := s.dropWhile Char.isDigit
  let (fraction, rest) := match afterWhole with
    | '.' :: t => (t.takeWhile Char.isDigit, t.dropWhile Char.isDigit)
    | t => ([], t)
  match Text.digits? 10 (whole ++ fraction), exponent? rest with
  | some count, some exponent => some ⟨count, exponent - fraction.length⟩
  | _, _ => none

end WrittenDecimal

namespace FloatFormat

variable (f : FloatFormat)

/-- Ten to this power is above every number, and its inverse rounds to zero. -/
def decimalReach : Int := Nat.pow 2 (f.exponentBits - 1)

/-- The bits nearest to a decimal.  One that is out of reach is not written out. -/
def ofDecimal (d : WrittenDecimal) : Nat :=
  let top := d.place + (Nat.toDigits 10 d.count).length
  if d.count = 0 ∨ top < -f.decimalReach then 0
  else if f.decimalReach < top then f.infinityBits
  else f.ofFraction (d.count * Nat.pow 10 d.place.toNat) (Nat.pow 10 (-d.place).toNat)

/-- Reads a number without a sign. -/
def readUnsigned? (s : List Char) : Option Nat :=
  let word := String.ofList (s.map Char.toLower)
  if word = "nan" then some f.nanBits
  else if word = "inf" ∨ word = "infinity" then some f.infinityBits
  else (WrittenDecimal.read? s).map f.ofDecimal

/-- Reads the bits of a number. -/
def read? : List Char → Option Nat
  | '-' :: s => (f.readUnsigned? s).map (f.signBit + ·)
  | '+' :: s => f.readUnsigned? s
  | s => f.readUnsigned? s

end FloatFormat

end PushGuard
