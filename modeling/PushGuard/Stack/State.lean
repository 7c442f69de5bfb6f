import PushGuard.Text.Digits

/-!
# Stack states

Of the evaluation stack only the number of values is kept, and how many of them, from the bottom
up, are tainted: a guarded push must not use them, not even indirectly.
-/

namespace PushGuard

structure StackState where
  size : Nat
  tainted : Nat
  tainted_le : tainted ≤ size
  deriving DecidableEq

namespace StackState

def empty : StackState := ⟨0, 0, Nat.le_refl 0⟩

/-- The state of this size whose tainted part is as large as asked for, or the whole stack. -/
def clamp (size tainted : Nat) : StackState := ⟨size, min size tainted, Nat.min_le_left ..⟩

def text (s : StackState) : String :=
  Text.decimal s.size ++ " (" ++ Text.decimal s.tainted ++ " unsafe)"

end StackState

/-- The state noted for an instruction that is reached by other ways than from the one before. -/
inductive Pending
  /-- Holds whatever state comes in; for the entries of exception handlers. -/
  | forced (state : StackState)
  /-- Joins the state that comes in; for branch targets. -/
  | merged (state : StackState)
  deriving DecidableEq

namespace StackState

/-- The state at a join.  The noted state wins if it is forced or if the sizes differ; otherwise a
value is tainted if it is so on either way. -/
def merge (s : StackState) : Pending → StackState
  | .forced t => t
  | .merged t => if t.size ≠ s.size then t else clamp t.size (max s.tainted t.tainted)

end StackState

namespace Pending

/-- The entry of an exception handler: the exception alone is on the stack. -/
def handlerEntry : Pending := .forced ⟨1, 0, Nat.zero_le 1⟩

/-- The entry of an exception handler that must not push the exception. -/
def taintedHandlerEntry : Pending := .forced ⟨1, 1, Nat.le_refl 1⟩

def state : Pending → StackState
  | forced s | merged s => s

def isForced : Pending → Bool
  | forced _ => true
  | merged _ => false

/-- One more state comes to the same instruction. -/
def absorb (p : Pending) (incoming : StackState) : Pending :=
  match p with
  | forced _ => p
  | merged s => .merged (s.merge (.merged incoming))

def text : Pending → String
  | forced s => s.text ++ " [forced]"
  | merged s => s.text

end Pending

/-- The states noted for instructions, the latest note for an instruction first. -/
structure JoinTable where
  notes : List (Nat × Pending) := []

namespace JoinTable

def get? (t : JoinTable) (id : Nat) : Option Pending := t.notes.lookup id

def insert (t : JoinTable) (id : Nat) (p : Pending) : JoinTable := ⟨(id, p) :: t.notes⟩

/-- Notes a state that a branch brings to an instruction. -/
def propagate (t : JoinTable) (s : StackState) (id : Nat) : JoinTable :=
  t.insert id (match t.get? id with
    | some p => p.absorb s
    | none => .merged s)

theorem get?_insert (t : JoinTable) (id other : Nat) (p : Pending) :
    (t.insert id p).get? other = if other = id then some p else t.get? other := by
  by_cases h : other = id
  · simp [get?, insert, h]
  · have hne : (other == id) = false := by simpa using h
    simp [get?, insert, List.lookup_cons, h, hne]

end JoinTable

end PushGuard
