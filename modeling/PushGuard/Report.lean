import PushGuard.Analysis.Log
import PushGuard.Listing
import PushGuard.Report.Options

/-!
# The report on listings

Every method of every listing is checked.  The report has a line for each, with the outcome, then
the states or the argument producers if they are asked for; what went wrong goes to the log.
-/

namespace PushGuard

/-- Why a file gives no methods. -/
inductive FileFault
  | unreadable (reason : String)
  | malformed (fault : ListingFault)

def FileFault.message : FileFault → String
  | unreadable reason => "I/O error: " ++ reason
  | malformed fault => fault.message

/-- A file of which the bytes are known, or why they are not. -/
structure SourceFile where
  path : String
  content : Except String ByteArray

/-- Reads the methods of a file. -/
def SourceFile.read (file : SourceFile) : Except FileFault (List Body) :=
  match file.content with
  | .error reason => .error (.unreadable reason)
  | .ok bytes =>
    match String.fromUTF8? bytes with
    | none => .error (.unreadable "stream did not contain valid UTF-8")
    | some source =>
      match Listing.read source with
      | .ok bodies => .ok bodies
      | .error fault => .error (.malformed fault)

inductive Style
  | bold | dimmed | green | red | yellow
  deriving DecidableEq

/-- The number that selects a style on a terminal. -/
def Style.number : Style → String
  | bold => "1"
  | dimmed => "2"
  | green => "32"
  | red => "31"
  | yellow => "33"

/-- A piece of the output. -/
inductive Piece
  | text (s : String)
  /-- What follows has this style and no other. -/
  | style (style : Style)
  | reset
  deriving DecidableEq

namespace Piece

/-- The command by which a terminal drops all styles. -/
def resetText : String := "\x1b[0m"

/-- The piece as it is written; without colours there are no styles. -/
def render (colors : Bool) : Piece → String
  | text s => s
  | style st => if colors then resetText ++ "\x1b[" ++ st.number ++ "m" else ""
  | reset => if colors then resetText else ""

end Piece

inductive Outcome
  | ok | failed | error
  deriving DecidableEq

namespace Outcome

def word : Outcome → String
  | ok => "OK"
  | failed => "FAILED"
  | error => "ERROR"

def style : Outcome → Style
  | ok => .green
  | failed => .red
  | error => .yellow

/-- The line for a method or for a file that cannot be read. -/
def line (o : Outcome) (name : String) : List Piece :=
  [.text " - ", .style .bold, .text name, .style .dimmed, .text " [", .style o.style, .text o.word,
    .style .dimmed, .text "]\n", .reset]

end Outcome

/-- What a part of the work writes, logs and counts. -/
structure Report where
  pieces : List Piece := []
  log : List LogLine := []
  passed : Nat := 0
  failed : Nat := 0
  unread : Nat := 0

namespace Report

/-- One part after the other. -/
def append (a b : Report) : Report where
  pieces := a.pieces ++ b.pieces
  log := a.log ++ b.log
  passed := a.passed + b.passed
  failed := a.failed + b.failed
  unread := a.unread + b.unread

def concat (reports : List Report) : Report := reports.foldr append {}

/-- Fills a text up with blanks to a width. -/
def padded (width : Nat) (s : String) : String :=
  s ++ String.ofList (List.replicate (width - s.length) ' ')

/-- The states, each in front of its instruction. -/
def ofStates (b : Body) (states : List StackState) : List Piece :=
  (states.zip b.instructions).flatMap fun (state, i) =>
    [.style .dimmed, .text ("     " ++ padded 16 state.text), .reset, .text (i.text ++ "\n")]

/-- A call with the instructions that left its arguments, or the reason why they are not known. -/
def ofCall (b : Body) (call : InstructionId) (i : Instruction) : Report :=
  match b.argumentProducers call with
  | .ok producers =>
    let offsets := (producers.filterMap b.offset?).map fun offset => offsetText offset.toNat
    { pieces := [.text ("     " ++ i.text ++ " <- (" ++ String.intercalate ", " offsets ++ ")\n")]
      log := [Body.producersLog call producers] }
  | .error fault => { log := [⟨.warn, .command, fault.diagnostic b⟩] }

/-- The check of a method: the states on entry to its instructions if they are asked for. -/
def check (options : Options) (b : Body) : Except Fault (Option (List StackState)) :=
  if options.states then (b.analyze options.policy).map some
  else (b.validate options.policy).map fun _ => none

/-- What the check logs. -/
def checkLog (options : Options) (b : Body) : List LogLine :=
  if options.states then b.analyzeLog options.policy else b.validateLog options.policy

/-- The outcome of a check. -/
def ofCheck (options : Options) (name : String) (b : Body) : Report :=
  match check options b with
  | .ok states => {
      pieces := Outcome.line .ok name ++ ofStates b (states.getD [])
      log := checkLog options b
      passed := 1 }
  | .error fault => {
      pieces := Outcome.line .failed name
      log := checkLog options b ++ [⟨.error, .command, fault.diagnostic b⟩]
      failed := 1 }

/-- The report on a method. -/
def ofBody (options : Options) (path : String) (b : Body) : Report :=
  (ofCheck options (path ++ ": " ++ b.name) b).append
    (if options.arguments then concat (b.calls.map fun (id, i) => ofCall b id i) else {})

/-- The report on a file. -/
def ofFile (options : Options) (file : SourceFile) : Report :=
  match file.read with
  | .ok bodies => concat (bodies.map (ofBody options file.path))
  | .error fault => {
      pieces := Outcome.line .error file.path
      log := [⟨.error, .command, file.path ++ ": " ++ fault.message⟩]
      unread := 1 }

/-- The counts at the end of the log. -/
def summary (r : Report) : LogLine :=
  ⟨.info, .command, Text.decimal r.passed ++ " methods passed, " ++ Text.decimal r.failed
    ++ " failed, " ++ Text.decimal r.unread ++ " listings could not be read"⟩

/-- The report on all files. -/
def ofFiles (options : Options) (files : List SourceFile) : Report :=
  let report := concat (files.map (ofFile options))
  { report with log := report.log ++ [report.summary] }

/-- The text on the standard output. -/
def output (colors : Bool) (r : Report) : String :=
  String.join (r.pieces.map (Piece.render colors))

/-- A log line as it is written.  A line feed in the message goes on to a line that starts with
four blanks, so only the first line of a message stands at the margin. -/
def logText (line : LogLine) : String :=
  "[" ++ padded 5 line.level.name ++ " " ++ line.source.name ++ "] "
    ++ String.ofList (line.message.toList.flatMap fun c =>
      if c = '\n' then '\n' :: List.replicate 4 ' ' else [c])
    ++ "\n"

/-- The text on the standard error: the log lines that pass the setting. -/
def errorOutput (least : Option LogLevel) (r : Report) : String :=
  String.join ((r.log.filter fun line => line.level.passes least).map logText)

def exitCode (r : Report) : Nat := if r.failed > 0 || r.unread > 0 then 1 else 0

end Report

end PushGuard
