/-!
# Binary floating point

A floating point operand is kept as its bits.  This module says which number the bits stand for,
and which bits are nearest to a positive fraction.
-/

namespace PushGuard

/-- The widths of a binary interchange format: a sign bit, then the biased exponent, then the
fraction. -/
structure FloatFormat where
  exponentBits : Nat
  fractionBits : Nat

/-- The number that the bits of a format stand for. -/
inductive FloatValue
  | nan
  | infinity (negative : Bool)
  /-- The significand times two to the exponent, with a sign of its own for zero. -/
  | finite (negative : Bool) (significand : Nat) (exponent : Int)

namespace FloatFormat

def single : FloatFormat := ⟨8, 23⟩

def double : FloatFormat := ⟨11, 52⟩

variable (f : FloatFormat)

/-- Added to the bits of a number to negate it. -/
def signBit : Nat := Nat.pow 2 (f.exponentBits + f.fractionBits)

/-- The bits of positive infinity. -/
def infinityBits : Nat := (Nat.pow 2 f.exponentBits - 1) * Nat.pow 2 f.fractionBits

/-- The bits of the quiet NaN with the sign bit clear and no payload. -/
def nanBits : Nat := f.infinityBits + Nat.pow 2 (f.fractionBits - 1)

/-- The exponent of the last place of the smallest numbers. -/
def leastExponent : Int := 2 - (Nat.pow 2 (f.exponentBits - 1) : Int) - f.fractionBits

/-- The significand of a number that has a full one starts here. -/
def fullSignificand : Nat := Nat.pow 2 f.fractionBits

def value (bits : Nat) : FloatValue :=
  let fraction := bits % Nat.pow 2 f.fractionBits
  let exponent := bits / Nat.pow 2 f.fractionBits % Nat.pow 2 f.exponentBits
  let negative := bits / f.signBit % 2 == 1
  if exponent = Nat.pow 2 f.exponentBits - 1 then
    if fraction = 0 then .infinity negative else .nan
  else if exponent = 0 then .finite negative fraction f.leastExponent
  else .finite negative (f.fullSignificand + fraction) (f.leastExponent + (exponent - 1 : Nat))

def isNaN (bits : Nat) : Bool :=
  match f.value bits with
  | .nan => true
  | _ => false

end FloatFormat

/-- The quotient rounded to the nearest number, a half to the even neighbour. -/
def roundDiv (num den : Nat) : Nat :=
  let quotient := num / den
  let twice := 2 * (num % den)
  if twice < den then quotient
  else if twice > den then quotient + 1
  else quotient + quotient % 2

/-- Numerator and denominator of `num / den` divided by a power of two. -/
def shiftFraction (num den : Nat) : Int → Nat × Nat
  | .ofNat e => (num, den * Nat.pow 2 e)
  | .negSucc e => (num * Nat.pow 2 (e + 1), den)

namespace FloatFormat

variable (f : FloatFormat)

/-- The exponent at which the integer part of `num / den` fills a significand and no more. -/
def exponentOf (num den : Nat) : Int :=
  let rough := max f.leastExponent ((Nat.log2 num : Int) - Nat.log2 den - 1 - f.fractionBits)
  let (n, d) := shiftFraction num den rough
  if n / d < 2 * f.fullSignificand then rough else rough + 1

/-- The bits nearest to `num / den`, ties to even, and infinity past the largest number. -/
def ofFraction (num den : Nat) : Nat :=
  let e := f.exponentOf num den
  let (n, d) := shiftFraction num den e
  -- the exponent field counts from the least exponent; a carry out of the significand lands there
  let bits := (e - f.leastExponent).toNat * Nat.pow 2 f.fractionBits + roundDiv n d
  min bits f.infinityBits

end FloatFormat

end PushGuard
