/-!
# Blanks

Words are separated by the characters with the Unicode property `White_Space`, of which there are
25; a non-breaking space counts, a zero-width space does not.
-/

namespace PushGuard.Text

/-- The character has the Unicode property `White_Space`. -/
def isBlank (c : Char) : Bool :=
  let n := c.toNat
  (9 ≤ n && n ≤ 13) || n == 0x20 || n == 0x85 || n == 0xA0 || n == 0x1680
    || (0x2000 ≤ n && n ≤ 0x200A) || n == 0x2028 || n == 0x2029 || n == 0x202F || n == 0x205F
    || n == 0x3000

def trimStart (s : List Char) : List Char := s.dropWhile isBlank

def trimEnd (s : List Char) : List Char := (s.reverse.dropWhile isBlank).reverse

def trim (s : List Char) : List Char := trimEnd (trimStart s)

/-- Puts one more character before a text whose words are known.  The flag says that the text
begins with its first word, so that the character joins it. -/
def addToWords (c : Char) : Bool × List (List Char) → Bool × List (List Char)
  | (joins, words) =>
    if isBlank c then (false, words)
    else match joins, words with
      | true, word :: rest => (true, (c :: word) :: rest)
      | _, rest => (true, [c] :: rest)

/-- The longest runs without a blank. -/
def words (s : List Char) : List (List Char) := (s.foldr addToWords (false, [])).2

end PushGuard.Text
