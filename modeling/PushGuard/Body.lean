import PushGuard.Instruction

/-!
# Method bodies

A body is a list of instructions with its exception handlers.  It says where each instruction
starts and which one comes before or after another, with or without the `nop`s between them.
-/

namespace PushGuard

inductive HandlerKind
  /-- Takes the exceptions of a type, and is entered with the exception on the stack. -/
  | typed
  /-- Takes what its filter accepts; both are entered with the exception on the stack. -/
  | filter
  /-- Runs however the block is left, and is entered with an empty stack. -/
  | cleanup
  /-- Runs when the block is left by an exception, and is entered with an empty stack. -/
  | fault
  deriving DecidableEq

/-- An exception handler.  The ends are the first instructions behind the blocks; there is none
behind a block that reaches the end of the method. -/
structure Handler where
  kind : HandlerKind
  tryStart : Option InstructionId := none
  tryEnd : Option InstructionId := none
  handlerStart : Option InstructionId := none
  handlerEnd : Option InstructionId := none
  /-- The start of the filter, for a handler that has one. -/
  filterStart : Option InstructionId := none
  /-- The exceptions that are caught, if this is known. -/
  catchType : Option String := none
  deriving DecidableEq

namespace Handler

/-- The instructions that are entered with the exception on the stack. -/
def exceptionEntries (h : Handler) : List InstructionId :=
  match h.kind with
  | .typed => h.handlerStart.toList
  | .filter => h.handlerStart.toList ++ h.filterStart.toList
  | .cleanup | .fault => []

end Handler

structure Body where
  name : String
  instructions : List Instruction
  handlers : List Handler
  deriving DecidableEq

/-- Gives instructions their offsets, one behind the other. -/
def layout (start : Nat) : List Instruction → List Instruction
  | [] => []
  | i :: rest => { i with offset := UInt32.ofNat start } :: layout (start + i.width) rest

namespace Body

/-- The body of these instructions, laid out from offset zero. -/
def ofInstructions (name : String) (instructions : List Instruction) (handlers : List Handler) :
    Body :=
  ⟨name, layout 0 instructions, handlers⟩

/-- The body with its offsets computed anew. -/
def relaid (b : Body) : Body := { b with instructions := layout 0 b.instructions }

/-- Equality of bodies whose floating point operands are compared as numbers: a body with a NaN
equals none. -/
def sameAs (a b : Body) : Bool := a == b && !a.instructions.any fun i => i.operand.isNaN

def size (b : Body) : Nat := b.instructions.length

def isEmpty (b : Body) : Bool := b.instructions.isEmpty

def get? (b : Body) (id : InstructionId) : Option Instruction := b.instructions[id]?

theorem get?_eq_some_of_lt (b : Body) (id : InstructionId) (h : id < b.size) :
    ∃ ins, b.get? id = some ins := by
  unfold size at h
  exact ⟨b.instructions[id], List.getElem?_eq_getElem h⟩

theorem lt_size_of_get? (b : Body) (id : InstructionId) (ins : Instruction)
    (h : b.get? id = some ins) : id < b.size :=
  (List.getElem?_eq_some_iff.1 h).1

def contains (b : Body) (id : InstructionId) : Bool := id < b.size

def offset? (b : Body) (id : InstructionId) : Option UInt32 := (b.get? id).map Instruction.offset

/-- The instruction that starts at this offset. -/
def findOffset? (b : Body) (offset : UInt32) : Option InstructionId :=
  b.instructions.findIdx? fun i => i.offset == offset

/-- The instruction in front of one of the body. -/
def previous? (b : Body) (id : InstructionId) : Option InstructionId :=
  if b.contains id then
    match id with
    | 0 => none
    | before + 1 => some before
  else none

def next? (b : Body) (id : InstructionId) : Option InstructionId :=
  if b.contains (id + 1) then some (id + 1) else none

/-- The last instruction before this place that is not a `nop`. -/
def lastWorkingBefore? (b : Body) : Nat → Option InstructionId
  | 0 => none
  | id + 1 =>
    match b.get? id with
    | some i => if i.isNop then b.lastWorkingBefore? id else some id
    | none => none

/-- The nearest instruction in front of one of the body, `nop`s left out. -/
def previousWorking? (b : Body) (id : InstructionId) : Option InstructionId :=
  if b.contains id then b.lastWorkingBefore? id else none

/-- The nearest instruction behind this place, `nop`s left out. -/
def nextWorking? (b : Body) (id : InstructionId) : Option InstructionId :=
  ((b.instructions.drop (id + 1)).findIdx? fun i => !i.isNop).map (id + 1 + ·)

/-- The places of the calls, in order. -/
def calls (b : Body) : List (InstructionId × Instruction) :=
  (b.instructions.zipIdx.filter fun (i, _) => i.code.flow == .call).map fun (i, id) => (id, i)

end Body

end PushGuard
