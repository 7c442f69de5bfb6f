import PushGuard.Analysis.Forward
import PushGuard.Analysis.Scan

/-!
# What the analyses log

The analyses themselves are silent.  Their log is computed beside them: one line for each
instruction that the pass gets through, and one for each branch target that it leaves out.
-/

namespace PushGuard

/-- How much a log line matters, the most important first. -/
inductive LogLevel
  | error | warn | info | debug | trace
  deriving DecidableEq

namespace LogLevel

def name : LogLevel → String
  | error => "ERROR"
  | warn => "WARN"
  | info => "INFO"
  | debug => "DEBUG"
  | trace => "TRACE"

def rank : LogLevel → Nat
  | error => 1
  | warn => 2
  | info => 3
  | debug => 4
  | trace => 5

/-- The levels that a setting lets through: all down to a level, or none at all. -/
def ofSetting? : String → Option (Option LogLevel)
  | "off" => some none
  | "error" => some (some error)
  | "warn" => some (some warn)
  | "info" => some (some info)
  | "debug" => some (some debug)
  | "trace" => some (some trace)
  | _ => none

/-- A line of this level passes a setting. -/
def passes (level : LogLevel) : Option LogLevel → Bool
  | none => false
  | some least => level.rank ≤ least.rank

end LogLevel

/-- The part of the program that logs. -/
inductive LogSource
  | command | pass | scan
  deriving DecidableEq

def LogSource.name : LogSource → String
  | command => "ilstack"
  | pass => "ilstack::analysis::push_validator"
  | scan => "ilstack::analysis::arguments"

structure LogLine where
  level : LogLevel
  source : LogSource
  message : String
  deriving DecidableEq

namespace Policy

/-- What the pass logs at an instruction. -/
def visitLog (name : String) (i : Instruction) (v : Visit) : List LogLine :=
  ⟨.trace, .pass, i.text ++ ": " ++ v.before.text ++ " -> " ++ v.after.text⟩
    :: List.replicate v.unresolved
      ⟨.warn, .pass, name ++ ": ignoring unresolved branch target of " ++ i.text⟩

/-- What the pass logs from place `id` on, up to the instruction at which it fails. -/
def passLog (p : Policy) (name : String) (size : Nat) :
    InstructionId → List Instruction → Frontier → List LogLine
  | _, [], _ => []
  | id, i :: rest, f =>
    match p.visit size id i f with
    | .error _ => []
    | .ok v => visitLog name i v ++ p.passLog name size (id + 1) rest v.next

end Policy

namespace Body

def analyzeLog (b : Body) (p : Policy) : List LogLine :=
  ⟨.debug, .pass, b.name ++ ": analysing " ++ Text.decimal b.size ++ " instructions"⟩
    :: p.passLog b.name b.size 0 b.instructions (p.start b)

def validateLog (b : Body) (p : Policy) : List LogLine :=
  if b.hasPush p then b.analyzeLog p
  else [⟨.debug, .pass, b.name ++ ": no push calls, skipping"⟩]

/-- What the search for the producers of a call's arguments logs when it succeeds. -/
def producersLog (call : InstructionId) (producers : List InstructionId) : LogLine :=
  ⟨.trace, .scan, "arguments of " ++ InstructionId.text call ++ " produced by ["
    ++ String.intercalate ", " (producers.map InstructionId.text) ++ "]"⟩

end Body

end PushGuard
