import PushGuard.Analysis.Fault
import PushGuard.Stack.Effect

/-!
# Producers and consumers

Two scans along the instructions, blind to branches.  One goes back from a call to the instructions
that left its arguments; the other goes on from an instruction to the one that uses its value.
-/

namespace PushGuard.Body

/-- Goes back through the instructions before `place` until `need` values and all that they were
made of are accounted for.  Gives the instruction that left the value and the place in front of its
first ingredient. -/
def producerBefore (b : Body) (call : InstructionId) :
    (place need : Nat) → (found : Option InstructionId) → Except Fault (InstructionId × Nat)
  | place, 0, found =>
    match found with
    | some id => .ok (id, place)
    | none => .error (.noProducer call)
  | 0, _ + 1, _ => .error (.noProducer call)
  | id + 1, need + 1, found =>
    match b.get? id with
    | none => .error (.noProducer call)
    | some i => do
      let effect ← atInstruction id i i.effect
      if need + 1 < effect.pushes then .error (.surplus call)
      else
        let left := need + 1 - effect.pushes
        let found := if left = 0 ∧ found = none then some id else found
        b.producerBefore call id (left + effect.pops) found

/-- The producers of `count` values before `place`, the deepest value first; `later` are those
already found. -/
def producersBefore (b : Body) (call : InstructionId) :
    (count place : Nat) → (later : List InstructionId) → Except Fault (List InstructionId)
  | 0, _, later => .ok later
  | count + 1, place, later => do
    let (id, place) ← b.producerBefore call place 1 none
    b.producersBefore call count place (id :: later)

/-- The instructions that left the arguments of a call, the first argument first. -/
def argumentProducers (b : Body) (call : InstructionId) : Except Fault (List InstructionId) :=
  match b.get? call with
  | none => .error (.notACall call)
  | some i =>
    if i.code.flow = .call then do
      let count ← atInstruction call i i.popCount
      b.producersBefore call count call []
    else .error (.notACall call)

/-- Goes on through the instructions from place `id`.  Before the first of them the value looked for
and those above it are `height` values; there is none of them yet when the scan starts. -/
def consumerFrom (producer : InstructionId) :
    (id : InstructionId) → (height : Nat) → List Instruction → Except Fault InstructionId
  | _, _, [] => .error (.noConsumer producer)
  | id, height, i :: rest => do
    let effect ← atInstruction id i i.effect
    let height := height + effect.pushes
    match rest with
    | [] => .error (.noConsumer producer)
    | next :: _ =>
      let nextEffect ← atInstruction (id + 1) next next.effect
      if height ≤ nextEffect.pops then return id + 1
      else consumerFrom producer (id + 1) (height - nextEffect.pops) rest

/-- The instruction that uses the value left by `producer`. -/
def valueConsumer (b : Body) (producer : InstructionId) : Except Fault InstructionId :=
  consumerFrom producer producer 0 (b.instructions.drop producer)

end PushGuard.Body
