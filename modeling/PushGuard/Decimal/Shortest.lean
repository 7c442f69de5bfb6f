import PushGuard.Decimal.Format
import PushGuard.Text.Digits

/-!
# The shortest decimal

A floating point number is written with the fewest digits that read back as the same number, and of
these with the digits nearest to it.  The text is positional and has no exponent.
-/

namespace PushGuard

/-- A positive binary number with the real numbers that round to it, in quarters of its last
place. -/
structure RoundingInterval where
  low : Nat
  middle : Nat
  high : Nat
  /-- The ends round to the number too. -/
  closed : Bool
  /-- The exponent of the unit, a quarter of the last place. -/
  exponent : Int

namespace RoundingInterval

/-- Below a power of two the neighbours are closer, unless they are the smallest numbers. -/
def ofFinite (f : FloatFormat) (significand : Nat) (exponent : Int) : RoundingInterval where
  low :=
    if significand = f.fullSignificand ∧ f.leastExponent < exponent then 4 * significand - 1
    else 4 * significand - 2
  middle := 4 * significand
  high := 4 * significand + 2
  closed := significand % 2 == 0
  exponent := exponent - 2

/-- A power of ten and the interval's unit on a common scale. -/
def scale (r : RoundingInterval) (place : Int) : Nat × Nat :=
  (Nat.pow 10 place.toNat * Nat.pow 2 (-r.exponent).toNat,
    Nat.pow 2 r.exponent.toNat * Nat.pow 10 (-place).toNat)

/-- The multiple `count` of the decimal place reads back as the number. -/
def holds (r : RoundingInterval) (step unit count : Nat) : Bool :=
  let x := count * step
  if r.closed then r.low * unit ≤ x && x ≤ r.high * unit
  else r.low * unit < x && x < r.high * unit

/-- The multiple of `10 ^ place` that reads back as the number: the nearer of its two neighbours,
and the greater one of two that are equally near. -/
def multipleAt? (r : RoundingInterval) (place : Int) : Option Nat :=
  let (step, unit) := r.scale place
  let below := r.middle * unit / step
  let rest := r.middle * unit % step
  match r.holds step unit below, r.holds step unit (below + 1) with
  | false, false => none
  | true, false => some below
  | false, true => some (below + 1)
  | true, true => some (if 2 * rest ≥ step then below + 1 else below)

/-- Tries finer and finer decimal places; after the last one the digits are written out. -/
def search (r : RoundingInterval) : (places : Nat) → (place : Int) → Nat × Int
  | 0, place => (r.middle * (r.scale place).2 / (r.scale place).1, place)
  | places + 1, place =>
    match r.multipleAt? place with
    | some count => (count, place)
    | none => search r places (place - 1)

end RoundingInterval

/-- A decimal place that is greater than every number below `2 ^ bits`. -/
def placeAbove (bits : Int) : Int :=
  if 0 ≤ bits then bits / 3 + 1 else -(-bits * 3 / 10)

/-- The digits and the last place of the shortest decimal of a positive number. -/
def shortestDecimal (f : FloatFormat) (significand : Nat) (exponent : Int) : Nat × Int :=
  let first := placeAbove (exponent + Nat.log2 significand + 2)
  (RoundingInterval.ofFinite f significand exponent).search (first - min 0 exponent).toNat first

/-- A decimal in positional notation. -/
def positional (count : Nat) (place : Int) : String :=
  let digits := Nat.toDigits 10 count
  let fraction := (-place).toNat
  if 0 ≤ place then String.ofList (digits ++ List.replicate place.toNat '0')
  else if fraction < digits.length then
    String.ofList (digits.take (digits.length - fraction)) ++ "."
      ++ String.ofList (digits.drop (digits.length - fraction))
  else "0." ++ String.ofList (List.replicate (fraction - digits.length) '0' ++ digits)

/-- The text of a floating point operand.  Zero keeps its sign, a NaN has none. -/
def FloatFormat.text (f : FloatFormat) (bits : Nat) : String :=
  let signed (negative : Bool) (text : String) := if negative then "-" ++ text else text
  match f.value bits with
  | .nan => "NaN"
  | .infinity negative => signed negative "inf"
  | .finite negative 0 _ => signed negative "0"
  | .finite negative significand exponent =>
    let (count, place) := shortestDecimal f significand exponent
    signed negative (positional count place)

end PushGuard
