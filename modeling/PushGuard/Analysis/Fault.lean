import PushGuard.Body

/-!
# Why an analysis fails

Every fault belongs to an instruction of the body.
-/

namespace PushGuard

inductive Fault
  /-- The table does not say how many values the instruction takes or leaves. -/
  | unrecognized (id : InstructionId) (code : Opcode) (rule : StackRule)
  /-- A guarded push uses a tainted value. -/
  | taintedPush (id : InstructionId) (method : MethodRef) (hint : Option String)
  /-- Going back from a call, an instruction leaves more values than are looked for. -/
  | surplus (call : InstructionId)
  /-- Going back from a call, the start of the method comes before an argument. -/
  | noProducer (call : InstructionId)
  | notACall (id : InstructionId)
  /-- Going on from an instruction, the method ends before its value is used. -/
  | noConsumer (producer : InstructionId)
  deriving DecidableEq

namespace Fault

/-- The instruction that the fault belongs to. -/
def instruction : Fault → InstructionId
  | unrecognized id _ _ => id
  | taintedPush id _ _ => id
  | surplus call => call
  | noProducer call => call
  | notACall id => id
  | noConsumer producer => producer

def hint? : Fault → Option String
  | taintedPush _ _ hint => hint
  | _ => none

def message : Fault → String
  | unrecognized _ code rule => "Unrecognized stack behaviour " ++ rule.name ++ " for " ++ code.mnemonic
  | taintedPush _ method hint =>
    shortTypeName method.declaringType ++ "." ++ method.name
      ++ " cannot be used in this context, as the IL layout makes it unsafe to process."
      ++ (match hint with
        | some hint => " " ++ hint
        | none => "")
  | surplus _ => "Unexpected stack behavior"
  | noProducer _ => "Could not locate call argument"
  | notACall _ => "Expected a call instruction"
  | noConsumer _ => "Unexpected end of method"

/-- The message with the method and the offset it belongs to. -/
def diagnostic (fault : Fault) (body : Body) : String :=
  match body.offset? fault.instruction with
  | some offset => body.name ++ " " ++ offsetText offset.toNat ++ ": " ++ fault.message
  | none => body.name ++ ": " ++ fault.message

end Fault

/-- Attaches the instruction to a rule that gives no number. -/
def atInstruction {α : Type} (id : InstructionId) (i : Instruction) :
    Except StackRule α → Except Fault α
  | .ok a => .ok a
  | .error rule => .error (.unrecognized id i.code rule)

end PushGuard
