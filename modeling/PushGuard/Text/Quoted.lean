import PushGuard.Text.Digits
import PushGuard.Text.Unprintable

/-!
# Quoted text

How an instruction shows its string operand: between double quotes, with a short escape for the
six characters that have one and a numbered escape for every other character that has no image of
its own.
-/

namespace PushGuard.Text

/-- The escape of a single character. -/
def quoteChar (c : Char) : String :=
  if c = '\x00' then "\\0"
  else if c = '\t' then "\\t"
  else if c = '\r' then "\\r"
  else if c = '\n' then "\\n"
  else if c = '"' then "\\\""
  else if c = '\\' then "\\\\"
  else if isUnprintable c then "\\u\x7b" ++ hex 1 c.toNat ++ "\x7d"
  else String.ofList [c]

def quote (s : String) : String := "\"" ++ String.join (s.toList.map quoteChar) ++ "\""

end PushGuard.Text
