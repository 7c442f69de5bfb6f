import PushGuard.Policy

/-!
# The command line

The arguments are options and one input, in any order.  An option takes its value from behind an
equals sign or from the next argument; each option may be given once.  Behind `--` there are no
options.
-/

namespace PushGuard

/-- What the arguments ask for. -/
structure Options where
  pushType : Option String := none
  ensureLocal : Option String := none
  trustException : Bool := false
  states : Bool := false
  arguments : Bool := false
  input : Option String := none
  deriving DecidableEq

namespace Options

/-- The argument is an option, or tries to be one.  A single dash is an input. -/
def looksLikeOption (arg : String) : Bool := arg.toList.head? == some '-' && arg != "-"

/-- Sets a value that was not set before. -/
def once {α : Type} (old : Option α) (new : α) : Option (Option α) :=
  match old with
  | some _ => none
  | none => some (some new)

/-- Sets a flag that was not set before. -/
def flagOnce (old : Bool) : Option Bool := if old then none else some true

/-- Takes the input, which must not be empty. -/
def setInput (o : Options) (arg : String) : Option Options :=
  if arg.isEmpty then none
  else do
    let input ← once o.input arg
    return { o with input }

/-- Takes an option that has a value. -/
def setValue (o : Options) (name value : String) : Option Options :=
  if name = "--push-type" then do
    let pushType ← once o.pushType value
    return { o with pushType }
  else if name = "--ensure-local" then do
    let ensureLocal ← once o.ensureLocal value
    return { o with ensureLocal }
  else none

/-- Takes an option that has none. -/
def setFlag (o : Options) (name : String) : Option Options :=
  if name = "--trust-exception-object" then do
    let trustException ← flagOnce o.trustException
    return { o with trustException }
  else if name = "--states" then do
    let states ← flagOnce o.states
    return { o with states }
  else if name = "--arguments" then do
    let arguments ← flagOnce o.arguments
    return { o with arguments }
  else none

/-- The option takes a value. -/
def takesValue (name : String) : Bool := name == "--push-type" || name == "--ensure-local"

/-- Reads arguments that are no options. -/
def readInputs (o : Options) : List String → Option Options
  | [] => some o
  | arg :: rest => do
    let o ← o.setInput arg
    o.readInputs rest

/-- Reads the arguments one by one. -/
def readArgs (o : Options) : List String → Option Options
  | [] => some o
  | arg :: rest =>
    if arg = "--" then o.readInputs rest
    else if !looksLikeOption arg then do
      let o ← o.setInput arg
      o.readArgs rest
    else
      let name := String.ofList (arg.toList.takeWhile (· != '='))
      match arg.toList.dropWhile (· != '=') with
      | _ :: value => do
        let o ← o.setValue name (String.ofList value)
        o.readArgs rest
      | [] =>
        if takesValue name then
          match rest with
          | [] => none
          | value :: rest =>
            if looksLikeOption value then none
            else do
              let o ← o.setValue name value
              o.readArgs rest
        else do
          let o ← o.setFlag name
          o.readArgs rest

/-- Reads a command line; there is none without an input. -/
def ofArgs (args : List String) : Option Options :=
  match readArgs {} args with
  | some o => if o.input.isSome then some o else none
  | none => none

/-- The policy that the options select. -/
def policy (o : Options) : Policy :=
  let default : Policy := {}
  { default with
    pushType := o.pushType.getD default.pushType
    ensureLocalMethod := o.ensureLocal.getD default.ensureLocalMethod
    taintsException := !o.trustException }

end Options

end PushGuard
