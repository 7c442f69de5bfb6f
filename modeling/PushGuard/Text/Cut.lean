/-!
# Cutting text

The cuts that the readers make: into lines, after a fixed beginning, before a fixed end.
-/

namespace PushGuard.Text

/-- Puts one more character before a text whose lines are known. -/
def addToLines (c : Char) (lines : List (List Char)) : List (List Char) :=
  if c = '\n' then [] :: lines
  else match lines with
    | [] => [[c]]
    | line :: rest => (c :: line) :: rest

/-- The lines of a text.  A line feed ends a line, so a text that ends in one has no further,
empty line after it. -/
def lines (s : List Char) : List (List Char) := s.foldr addToLines []

/-- What follows `start` in a text that begins with it. -/
def after? : (start s : List Char) → Option (List Char)
  | [], s => some s
  | _ :: _, [] => none
  | a :: start, c :: s => if a = c then after? start s else none

/-- What precedes the last character of a text that ends with `c`. -/
def before? (c : Char) (s : List Char) : Option (List Char) :=
  if s.getLast? = some c then some s.dropLast else none

theorem length_of_after? {start s rest : List Char} (h : after? start s = some rest) :
    s.length = start.length + rest.length := by
  induction start generalizing s with
  | nil => simp_all [after?]
  | cons a start ih =>
    cases s with
    | nil => simp [after?] at h
    | cons c s =>
      simp only [after?] at h
      split at h
      · have := ih h
        simp only [List.length_cons]
        omega
      · simp at h

end PushGuard.Text
