import PushGuard.Analysis.Fault
import PushGuard.Policy
import PushGuard.Stack.Effect
import PushGuard.Stack.State

/-!
# The forward pass

One pass over the instructions computes the stack state on entry to each of them.  The state that a
branch brings to an instruction further down is noted and joined when the pass gets there; a branch
to an instruction already passed changes nothing.  The pass fails at the first guarded push that
uses a tainted value.
-/

namespace PushGuard

/-- What the pass carries from one instruction to the next. -/
structure Frontier where
  notes : JoinTable
  /-- The state that comes from the instruction before. -/
  state : StackState

/-- What the pass finds at an instruction. -/
structure Visit where
  before : StackState
  after : StackState
  /-- The branch targets that lie in the body. -/
  targets : List InstructionId
  /-- How many branch targets do not. -/
  unresolved : Nat
  next : Frontier

/-- The state on entry to an instruction. -/
def Frontier.entry (f : Frontier) (id : InstructionId) : StackState :=
  match f.notes.get? id with
  | some p => f.state.merge p
  | none => f.state

/-- The targets that lie in a body of this size. -/
def resolvedTargets (size : Nat) (i : Instruction) : List InstructionId :=
  i.operand.targets.filterMap fun target => target.filter fun id => id < size

/-- The stack below the values that an instruction takes, and whether it takes a tainted one.  A
stack that is too small is taken as a whole, and what is missing counts as tainted. -/
def StackState.take (s : StackState) (pops : Nat) : Nat × Bool :=
  if pops ≤ s.size then (s.size - pops, s.size - pops < s.tainted) else (0, true)

namespace Policy

/-- The state behind an instruction that is entered in state `before`.  All that a guarded push
leaves on the stack is tainted from then on, and so is all that is made of a tainted value. -/
def transfer (p : Policy) (id : InstructionId) (i : Instruction) (before : StackState) :
    Except Fault StackState := do
  let effect ← atInstruction id i (i.effectOn before.size)
  let (kept, usesTainted) := before.take effect.pops
  let size := kept + effect.pushes
  match p.recognize i with
  | some push =>
    if usesTainted then .error (.taintedPush id push.method (p.hint push))
    else return .clamp size size
  | none => return .clamp size (if usesTainted then size else before.tainted)

/-- The pass at one instruction of a body of this size. -/
def visit (p : Policy) (size : Nat) (id : InstructionId) (i : Instruction) (f : Frontier) :
    Except Fault Visit := do
  let before := f.entry id
  let after ← p.transfer id i before
  let targets := resolvedTargets size i
  return {
    before, after, targets
    unresolved := i.operand.targets.length - targets.length
    next := {
      notes := targets.foldl (fun notes target => notes.propagate after target) f.notes
      state := if i.code.flow.stops then .empty else after } }

/-- The states on entry to the instructions from place `id` on. -/
def passFrom (p : Policy) (size : Nat) :
    InstructionId → List Instruction → Frontier → Except Fault (List StackState)
  | _, [], _ => .ok []
  | id, i :: rest, f => do
    let v ← p.visit size id i f
    let states ← p.passFrom size (id + 1) rest v.next
    return v.before :: states

/-- The state on entry to an exception handler. -/
def handlerEntry (p : Policy) : Pending :=
  if p.taintsException then .taintedHandlerEntry else .handlerEntry

/-- What the pass starts with: the handler entries, and an empty stack. -/
def start (p : Policy) (b : Body) : Frontier where
  notes := (b.handlers.flatMap Handler.exceptionEntries).foldl
    (fun notes id => notes.insert id p.handlerEntry) {}
  state := .empty

end Policy

namespace Body

/-- The stack state on entry to every instruction. -/
def analyze (b : Body) (p : Policy) : Except Fault (List StackState) :=
  p.passFrom b.size 0 b.instructions (p.start b)

/-- The body has a guarded push. -/
def hasPush (b : Body) (p : Policy) : Bool := b.instructions.any fun i => (p.recognize i).isSome

/-- No guarded push uses a tainted value.  A body without guarded pushes is accepted as it is. -/
def validate (b : Body) (p : Policy) : Except Fault Unit :=
  if b.hasPush p then do
    let _ ← b.analyze p
    return ()
  else .ok ()

/-- The guarded pushes of the body, with their places. -/
def pushes (b : Body) (p : Policy) : List (InstructionId × GuardedPush) :=
  b.instructions.zipIdx.filterMap fun (i, id) => (p.recognize i).map fun push => (id, push)

end Body

end PushGuard
