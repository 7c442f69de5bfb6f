import PushGuard.Body

/-!
# Building a body with labels

A body is built from top to bottom.  Branches and handlers name labels, which may be placed before
or after they are named; a label marks the instruction that is emitted next.  Labels are resolved
when the body is finished.  They may be numbers that the builder hands out, or names.
-/

namespace PushGuard

/-- A label that the builder hands out, by its number.  The labels are counted without a bound, which
agrees with a counter of 32 bits as long as one builder hands out fewer than 2 ^ 32 of them. -/
abbrev Label := Nat

def Label.text (label : Label) : String := "L" ++ Text.decimal label

inductive LabelFault (L : Type)
  /-- The label is named, and marks no instruction. -/
  | unplaced (label : L)
  /-- The label was placed before. -/
  | duplicate (label : L)
  deriving DecidableEq

def LabelFault.message : LabelFault Label → String
  | unplaced label => "label " ++ label.text ++ " is never placed"
  | duplicate label => "label " ++ label.text ++ " is placed twice"

/-- An emitted instruction, the labels of which are not yet resolved. -/
inductive Draft (L : Type)
  | plain (code : Opcode) (operand : Operand)
  | branch (code : Opcode) (label : L)
  | switch (labels : List L)
  deriving DecidableEq

structure HandlerDraft (L : Type) where
  kind : HandlerKind
  handlerStart : L
  filterStart : Option L
  deriving DecidableEq

structure Builder (L : Type) where
  name : String
  drafts : Array (Draft L) := #[]
  /-- Where the labels are placed, the latest placement first. -/
  placed : List (L × Nat) := []
  handlers : Array (HandlerDraft L) := #[]
  nextLabel : Label := 0

namespace Builder

variable {L : Type} [BEq L]

/-- The place that a label marks; the latest placement counts. -/
def place? (b : Builder L) (label : L) : Option Nat := b.placed.lookup label

/-- The label marks what is emitted next. -/
def place (b : Builder L) (label : L) : Builder L :=
  { b with placed := (label, b.drafts.size) :: b.placed }

omit [BEq L] in
def emit (b : Builder L) (draft : Draft L) : Builder L := { b with drafts := b.drafts.push draft }

omit [BEq L] in
def addHandler (b : Builder L) (handler : HandlerDraft L) : Builder L :=
  { b with handlers := b.handlers.push handler }

/-- The instruction that a label marks. -/
def resolve (b : Builder L) (label : L) : Except (LabelFault L) InstructionId :=
  match b.place? label with
  | some id => if id < b.drafts.size then .ok id else .error (.unplaced label)
  | none => .error (.unplaced label)

def resolveDraft (b : Builder L) : Draft L → Except (LabelFault L) Instruction
  | .plain code operand => .ok { code, operand }
  | .branch code label => do
    let id ← b.resolve label
    return { code, operand := .target (some id) }
  | .switch labels => do
    let ids ← labels.mapM b.resolve
    return { code := .switch, operand := .switch (ids.map some) }

def resolveHandler (b : Builder L) (h : HandlerDraft L) : Except (LabelFault L) Handler := do
  let handlerStart ← b.resolve h.handlerStart
  let filterStart ← h.filterStart.mapM b.resolve
  return { kind := h.kind, handlerStart := some handlerStart, filterStart }

/-- The body, if every label that is named marks an instruction.  The labels of the instructions
are resolved before those of the handlers. -/
def finish (b : Builder L) : Except (LabelFault L) Body := do
  let instructions ← b.drafts.toList.mapM b.resolveDraft
  let handlers ← b.handlers.toList.mapM b.resolveHandler
  return Body.ofInstructions b.name instructions handlers

end Builder

/-- One call of a builder that hands out its labels. -/
inductive BuildStep
  | fresh
  | place (label : Label)
  | emit (draft : Draft Label)
  | handler (handler : HandlerDraft Label)

/-- What a step gives back. -/
inductive BuildReply
  | label (label : Label)
  | placed
  /-- The label has moved although it was placed before. -/
  | refused (fault : LabelFault Label)
  | emitted (id : InstructionId)
  | registered

namespace Builder

def step (b : Builder Label) : BuildStep → BuildReply × Builder Label
  | .fresh => (.label b.nextLabel, { b with nextLabel := b.nextLabel + 1 })
  | .place label =>
    (if (b.place? label).isSome then .refused (.duplicate label) else .placed, b.place label)
  | .emit draft => (.emitted b.drafts.size, b.emit draft)
  | .handler handler => (.registered, b.addHandler handler)

/-- The replies to a sequence of steps, and the builder after it. -/
def run (b : Builder Label) : List BuildStep → List BuildReply × Builder Label
  | [] => ([], b)
  | s :: rest =>
    let (reply, b) := b.step s
    let (replies, b) := b.run rest
    (reply :: replies, b)

end Builder

end PushGuard
