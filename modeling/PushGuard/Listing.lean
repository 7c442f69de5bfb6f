import PushGuard.Builder
import PushGuard.Listing.Operand

/-!
# Listings

A listing holds the bodies of methods.  A method begins with `.method NAME` and ends with `.end`;
between them stands one instruction on a line, with a `label:` in front of it if it has one.  The
directives `.catch`, `.filter`, `.finally` and `.fault` name the entries of exception handlers by
their labels.  Comments run from `//` to the end of the line.
-/

namespace PushGuard.Listing

open Text

/-- Where a scan along a line stands: outside of strings, inside of one, or behind a backslash
inside of one. -/
inductive StringPart
  | outside | inside | escape
  deriving DecidableEq

/-- Drops a comment.  Two slashes inside of a string begin none. -/
def stripComment : (part : StringPart) → List Char → List Char
  | _, [] => []
  | .escape, c :: s => c :: stripComment .inside s
  | .inside, c :: s =>
    c :: stripComment (if c = '\\' then .escape else if c = '"' then .outside else .inside) s
  | .outside, c :: s =>
    if c = '/' ∧ s.head? = some '/' then []
    else c :: stripComment (if c = '"' then .inside else .outside) s

def isLabelChar (c : Char) : Bool := c.isAlphanum || c == '_' || c == '$' || c == '.'

/-- Splits `label: rest`.  The colons of `Type::Member` end no label. -/
def splitLabel? (line : List Char) : Option (String × List Char) :=
  let label := line.takeWhile (· != ':')
  match line.dropWhile (· != ':') with
  | [] => none
  | _ :: rest =>
    if label.isEmpty || !label.all isLabelChar || rest.head? == some ':' then none
    else some (String.ofList label, rest)

/-- What stands behind a directive, if the line begins with it. -/
def directive? (name : String) (line : List Char) : Option (List Char) :=
  match after? name.toList line with
  | some [] => some []
  | some (c :: rest) => if isBlank c then some (trim (c :: rest)) else none
  | none => none

/-- What a line of a method says, apart from its label. -/
inductive Statement
  | instruction (draft : Draft String)
  | handler (handler : HandlerDraft String)
  deriving DecidableEq

namespace Statement

/-- The labels that the line names. -/
def labels : Statement → List String
  | instruction (.plain _ _) => []
  | instruction (.branch _ label) => [label]
  | instruction (.switch labels) => labels
  | handler h => h.handlerStart :: h.filterStart.toList

end Statement

/-- Reads an instruction without its label. -/
def readInstruction (line : List Char) : Except LineFault (Draft String) :=
  let mnemonic := String.ofList (line.takeWhile fun c => !isBlank c)
  let operand := trim (line.dropWhile fun c => !isBlank c)
  match Opcode.ofMnemonic? mnemonic with
  | none => .error (.unknownOpcode mnemonic)
  | some code =>
    if code.shape = .none then
      if operand.isEmpty then .ok (.plain code .none) else .error (.surplusOperand mnemonic)
    else if operand.isEmpty then .error (.missingOperand mnemonic)
    else if code.shape = .switch then
      match (after? ['('] operand).bind (before? ')') with
      | some labels => .ok (.switch ((splitTopLevel labels).map String.ofList))
      | none => .error .switchLabels
    else if code.shape.isTarget then .ok (.branch code (String.ofList operand))
    else match readOperand code.shape operand with
      | .ok operand => .ok (.plain code operand)
      | .error fault => .error (.operand fault)

/-- Reads the directive of an exception handler. -/
def readHandler (line : List Char) : Except LineFault (HandlerDraft String) :=
  match (words line).map String.ofList with
  | [".catch", handler] => .ok ⟨.typed, handler, none⟩
  | [".finally", handler] => .ok ⟨.cleanup, handler, none⟩
  | [".fault", handler] => .ok ⟨.fault, handler, none⟩
  | [".filter", filter, handler] => .ok ⟨.filter, handler, some filter⟩
  | directive :: _ =>
    if directive ∈ [".catch", ".finally", ".fault", ".filter"] then
      .error (.handlerLabels directive)
    else .error (.unknownDirective directive)
  | [] => .error (.unknownDirective "")

/-- Reads what a line says, apart from its label. -/
def readStatement (line : List Char) : Except LineFault Statement :=
  if line.head? = some '.' then (readHandler line).map .handler
  else (readInstruction line).map .instruction

/-- A method of which the end is not yet read. -/
structure Block where
  builder : Builder String
  /-- The line on which each label is placed. -/
  placedOn : List (String × Nat) := []
  /-- The lines on which labels are named. -/
  namedOn : List (Nat × String) := []

namespace Block

/-- Places a label on the instruction that comes next. -/
def place (block : Block) (line : Nat) (label : String) : Except LineFault Block :=
  match block.placedOn.lookup label with
  | some earlier => .error (.labelPlaced label earlier)
  | none => .ok { block with
      builder := block.builder.place label
      placedOn := (label, line) :: block.placedOn }

def add (block : Block) (line : Nat) (statement : Statement) : Block :=
  { block with
    builder := match statement with
      | .instruction draft => block.builder.emit draft
      | .handler handler => block.builder.addHandler handler
    namedOn := statement.labels.foldl (fun named label => (line, label) :: named) block.namedOn }

/-- Reads a line of the method that is not blank. -/
def readLine (block : Block) (line : Nat) (text : List Char) : Except LineFault Block :=
  match splitLabel? text with
  | none => do
    let statement ← readStatement text
    return block.add line statement
  | some (label, rest) => do
    let block ← block.place line label
    let rest := trim rest
    if rest.isEmpty then return block
    else
      let statement ← readStatement rest
      return block.add line statement

/-- Earlier lines come first, and on one line the names in their order. -/
def earlier (a b : Nat × String) : Bool := a.1 < b.1 || (a.1 == b.1 && a.2 < b.2)

/-- The first of the names for which no label is placed. -/
def firstUnplaced? (block : Block) : Option (Nat × String) :=
  (block.namedOn.filter fun (_, label) => (block.placedOn.lookup label).isNone).foldl
    (fun least named => match least with
      | none => some named
      | some least => some (if earlier named least then named else least)) none

/-- The body of the method, which ends on this line. -/
def finish (block : Block) (line : Nat) : Except ListingFault Body :=
  match block.firstUnplaced? with
  | some (first, label) => .error ⟨first, .labelNotPlaced label⟩
  | none =>
    match block.builder.finish with
    | .ok body => .ok body
    | .error _ => .error ⟨line, .labelAtEnd⟩

end Block

/-- What is read of a listing so far. -/
structure Progress where
  bodies : Array Body := #[]
  block : Option Block := none

/-- Reads a line of the listing. -/
def readLine (progress : Progress) (line : Nat) (raw : List Char) :
    Except ListingFault Progress :=
  let text := trim (stripComment .outside raw)
  if text.isEmpty then .ok progress
  else match directive? ".method" text, progress.block with
    | some _, some _ => .error ⟨line, .nestedMethod⟩
    | some name, none =>
      if name.isEmpty then .error ⟨line, .unnamedMethod⟩
      else .ok { progress with block := some { builder := { name := String.ofList name } } }
    | none, some block =>
      if text = ".end".toList then do
        let body ← block.finish line
        return { bodies := progress.bodies.push body }
      else match block.readLine line text with
        | .ok block => .ok { progress with block := some block }
        | .error cause => .error ⟨line, cause⟩
    | none, none =>
      if text = ".end".toList then .error ⟨line, .endOutside⟩
      else .error ⟨line, .instructionOutside⟩

/-- Reads lines of which the first one has this number. -/
def readLines (progress : Progress) (line : Nat) : List (List Char) → Except ListingFault Progress
  | [] => .ok progress
  | raw :: rest => do
    let progress ← readLine progress line raw
    readLines progress (line + 1) rest

/-- Reads the lines of a whole listing. -/
def ofLines (lines : List (List Char)) : Except ListingFault (List Body) := do
  let progress ← readLines {} 1 lines
  match progress.block with
  | some _ => .error ⟨lines.length, .missingEnd⟩
  | none => return progress.bodies.toList

/-- Reads the bodies of all methods in a listing. -/
def read (source : String) : Except ListingFault (List Body) := ofLines (lines source.toList)

end PushGuard.Listing
