import PushGuard.Instruction

/-!
# Stack effects

How many values an instruction takes from the evaluation stack and puts there.  Two readings of
`dup` are in use.  Who looks for the producer of a value counts it as a new value only, so that
`dup` produces its copy; who simulates the stack counts the operand as well.
-/

namespace PushGuard

/-- Values taken from the stack, then values put there. -/
structure StackEffect where
  pops : Nat
  pushes : Nat
  deriving DecidableEq

/-- Values that a call with this signature takes: the arguments, the receiver unless the call
creates it, and the pointer of a call through one. -/
def argumentCount (code : Opcode) (sig : Signature) : Nat :=
  sig.parameters.length
    + (if sig.implicitReceiver && code != .newobj then 1 else 0)
    + (if code == .calli then 1 else 0)

/-- Values that a call with this signature leaves. -/
def resultCount (code : Opcode) (sig : Signature) : Nat :=
  if sig.returnsValue || code == .newobj then 1 else 0

namespace Instruction

/-- Values taken by the instruction, `dup` taking none; else the rule that gives no number. -/
def popCount (i : Instruction) : Except StackRule Nat :=
  if i.code.flow = .call then
    match i.operand.signature? with
    | some sig => .ok (argumentCount i.code sig)
    | none => .error (.pops i.code.pops)
  else if i.code = .dup then .ok 0
  else match i.code.pops with
    | .slots kinds => .ok kinds.length
    | rule => .error (.pops rule)

/-- Values put on the stack by the instruction, `dup` putting just the copy; else the rule that
gives no number. -/
def pushCount (i : Instruction) : Except StackRule Nat :=
  if i.code.flow = .call then
    match i.operand.signature? with
    | some sig => .ok (resultCount i.code sig)
    | none => .error (.pushes i.code.pushes)
  else if i.code = .dup then .ok 1
  else match i.code.pushes with
    | .slots kinds => .ok kinds.length
    | rule => .error (.pushes rule)

/-- The effect for a search of producers and consumers. -/
def effect (i : Instruction) : Except StackRule StackEffect := do
  let pops ← i.popCount
  let pushes ← i.pushCount
  return ⟨pops, pushes⟩

/-- The effect on a stack of this size.  `ret`, and what empties the stack, take all of it. -/
def effectOn (i : Instruction) (stackSize : Nat) : Except StackRule StackEffect :=
  if i.code = .dup then .ok ⟨1, 2⟩
  else if i.code = .ret ∨ i.code.pops = .everything then do
    let pushes ← i.pushCount
    return ⟨stackSize, pushes⟩
  else i.effect

end Instruction

end PushGuard
