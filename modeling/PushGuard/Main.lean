import PushGuard.Report
import PushGuard.Report.FileTree

/-!
# The command

Finds the listings, reads them, and writes the report.  Errors are logged unless the variable
`RUST_LOG` asks for more or for nothing, by the name of a level.
-/

namespace PushGuard

/-- The files below a directory. -/
partial def filesBelow (dir : String) : IO (List String) := do
  let root : IO.FS.DirEntry := { root := dir, fileName := "" }
  try
    let entries ← root.root.readDir
    let found ← entries.toList.mapM fun entry => do
      let path := FileTree.joinPath dir entry.fileName
      if ← entry.path.isDir then filesBelow path else return [path]
    return found.flatten
  catch _ => return []

/-- The listings that an input names. -/
def listingPaths (input : String) : IO (List String) := do
  let root : IO.FS.DirEntry := { root := input, fileName := "" }
  if ← root.root.isDir then
    let files ← filesBelow input
    let listings := files.filter fun path =>
      FileTree.isListingName ((FileTree.splitPath path).getLastD "")
    return listings.mergeSort fun a b => !(b < a)
  else if ← root.root.pathExists then return [input]
  else return []

def readSource (path : String) : IO SourceFile := do
  try
    let bytes ← IO.FS.readBinFile path
    return { path, content := .ok bytes }
  catch e => return { path, content := .error (toString e) }

def usage : String :=
  "usage: [--push-type TYPE] [--ensure-local METHOD] [--trust-exception-object] [--states] "
    ++ "[--arguments] INPUT"

/-- Checks the listings that the command line names. -/
def runCommand (args : List String) : IO UInt32 := do
  match Options.ofArgs args with
  | none =>
    IO.eprintln usage
    return 2
  | some options =>
    let paths ← listingPaths (options.input.getD "")
    let files ← paths.mapM readSource
    let report := Report.ofFiles options files
    -- errors only, unless the environment says otherwise
    let setting := (← IO.getEnv "RUST_LOG").bind LogLevel.ofSetting?
    let least := setting.getD (some .error)
    let colors := (← IO.getEnv "TERM").getD "dumb" != "dumb"
    IO.print (report.output colors)
    IO.eprint (report.errorOutput least)
    return UInt32.ofNat report.exitCode

end PushGuard

def main (args : List String) : IO UInt32 := PushGuard.runCommand args
