import PushGuard.Listing.Fault
import PushGuard.Signature
import PushGuard.Text.Blank
import PushGuard.Text.Cut

/-!
# Reading signatures and method references

A signature is written `[instance] [explicit] RESULT(PARAMETERS)` and a method reference
`[instance] [explicit] RESULT TYPE::NAME[<GENERICS>](PARAMETERS)`.  The result type may hold blanks,
the declaring type may not; the generic arguments of the method are dropped.
-/

namespace PushGuard.Listing

open Text

/-- What follows a word and its space, the blanks in front of it left out. -/
def afterWord? (word : String) (s : List Char) : Option (List Char) :=
  (after? (word.toList ++ [' ']) s).map trimStart

theorem length_of_afterWord? {word : String} {s rest : List Char}
    (h : afterWord? word s = some rest) : rest.length < s.length := by
  simp only [afterWord?, Option.map_eq_some_iff] at h
  obtain ⟨tail, htail, rfl⟩ := h
  have h1 := length_of_after? htail
  have h2 := (List.dropWhile_sublist isBlank (l := tail)).length_le
  simp only [List.length_append, List.length_singleton] at h1
  simp only [trimStart]
  omega

/-- Takes the words that say how the receiver is passed. -/
def takeConvention (convention : Convention) (s : List Char) : Convention × List Char :=
  match _h : afterWord? "instance" s with
  | some rest => takeConvention { convention with hasThis := true } rest
  | none =>
    match _h : afterWord? "explicit" s with
    | some rest => takeConvention { convention with explicitThis := true } rest
    | none => (convention, s)
termination_by s.length
decreasing_by all_goals exact length_of_afterWord? ‹_›

/-- How a character changes the depth of brackets. -/
def bracketStep (c : Char) : Int :=
  if c = '<' ∨ c = '[' ∨ c = '(' then 1
  else if c = '>' ∨ c = ']' ∨ c = ')' then -1
  else 0

/-- Splits at the commas where the depth of brackets is zero. -/
def splitCommas (depth : Int) : List Char → List (List Char)
  | [] => [[]]
  | c :: s =>
    if c = ',' ∧ depth = 0 then [] :: splitCommas 0 s
    else match splitCommas (depth + bracketStep c) s with
      | [] => [[c]]
      | part :: parts => (c :: part) :: parts

/-- The trimmed parts between the commas outside of brackets; a blank text has no parts. -/
def splitTopLevel (s : List Char) : List (List Char) :=
  if (trim s).isEmpty then [] else (splitCommas 0 s).map trim

/-- Splits a text into what stands before its first parenthesis and the parts inside. -/
def splitParameters (s : List Char) : Except OperandFault (List Char × List String) :=
  match s.dropWhile (· != '(') with
  | [] => .error (.noParameters (String.ofList s))
  | _ :: inside =>
    match before? ')' inside with
    | none => .error (.openParameters (String.ofList s))
    | some inside =>
      .ok (trim (s.takeWhile (· != '(')), (splitTopLevel inside).map String.ofList)

/-- Going back through a text, what stands before the bracket that opens the depth-th group. -/
def beforeGroup? : (depth : Nat) → (reversed : List Char) → Option (List Char)
  | _, [] => none
  | depth, c :: s =>
    if c = '>' then beforeGroup? (depth + 1) s
    else if c = '<' then if depth ≤ 1 then some s else beforeGroup? (depth - 1) s
    else beforeGroup? depth s

/-- Drops generic arguments from the end of a text. -/
def dropGenerics (s : List Char) : List Char :=
  if s.getLast? = some '>' then
    match beforeGroup? 0 s.reverse with
    | some reversed => reversed.reverse
    | none => s
  else s

/-- Going back through a text, what stands after and before the last `::`. -/
def splitMember? : (reversed : List Char) → Option (List Char × List Char)
  | [] => none
  | c :: s =>
    match c, s with
    | ':', ':' :: before => some ([], before)
    | _, _ => (splitMember? s).map fun (name, before) => (c :: name, before)

/-- A result type, unless it says that there is no result. -/
def resultType? (s : List Char) : Option String :=
  let text := String.ofList s
  if text = "void" ∨ text = "System.Void" then none else some text

/-- Reads the signature of a call through a pointer. -/
def readSignature (text : List Char) : Except OperandFault Signature := do
  let (convention, rest) := takeConvention {} (trim text)
  let (head, parameters) ← splitParameters rest
  if head.isEmpty then .error (.noReturnType (String.ofList text))
  else return { convention, parameters, returnType := resultType? head }

/-- Reads a method reference. -/
def readMethod (text : List Char) : Except OperandFault MethodRef := do
  let (convention, rest) := takeConvention {} (trim text)
  let (head, parameters) ← splitParameters rest
  match splitMember? (dropGenerics head).reverse with
  | none => .error (.noMember (String.ofList text))
  | some (name, before) =>
    let before := trimStart before
    let declaringType := before.takeWhile fun c => !isBlank c
    match before.dropWhile fun c => !isBlank c with
    | [] => .error (.noReturnType (String.ofList text))
    | _ :: returnType =>
      if name.isEmpty || declaringType.isEmpty then
        .error (.malformedMethod (String.ofList text))
      else return {
        declaringType := String.ofList declaringType.reverse
        name := String.ofList name.reverse
        signature := { convention, parameters, returnType := resultType? (trim returnType.reverse) } }

end PushGuard.Listing
