/-!
# Numbers in text

Decimal and hexadecimal digits, written without leading zeros unless a width asks for them, and
read back in either case of the letters.
-/

namespace PushGuard.Text

def decimal (n : Nat) : String := String.ofList (Nat.toDigits 10 n)

def signedDecimal : Int → String
  | .ofNat n => decimal n
  | .negSucc n => "-" ++ decimal (n + 1)

/-- Lower case hexadecimal digits, filled up with zeros to `width`. -/
def hex (width n : Nat) : String :=
  let digits := Nat.toDigits 16 n
  String.ofList (List.replicate (width - digits.length) '0' ++ digits)

/-- The value of a digit; letters stand for ten and more. -/
def digitValue? (c : Char) : Option Nat :=
  if '0' ≤ c ∧ c ≤ '9' then some (c.toNat - '0'.toNat)
  else if 'a' ≤ c ∧ c ≤ 'z' then some (c.toNat - 'a'.toNat + 10)
  else if 'A' ≤ c ∧ c ≤ 'Z' then some (c.toNat - 'A'.toNat + 10)
  else none

/-- Reads digits after a part with the value `high`. -/
def digitsFrom? (base high : Nat) : List Char → Option Nat
  | [] => some high
  | c :: s =>
    match digitValue? c with
    | some d => if d < base then digitsFrom? base (high * base + d) s else none
    | none => none

/-- Reads one or more digits and nothing else. -/
def digits? (base : Nat) : List Char → Option Nat
  | [] => none
  | s => digitsFrom? base 0 s

/-- Reads digits after at most one sign. -/
def signedDigits? (base : Nat) : List Char → Option Int
  | '-' :: s => (digits? base s).map fun n => -(n : Int)
  | '+' :: s => (digits? base s).map fun n => (n : Int)
  | s => (digits? base s).map fun n => (n : Int)

end PushGuard.Text
