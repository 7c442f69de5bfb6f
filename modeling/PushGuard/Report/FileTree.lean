/-!
# The listings under a path

A file tree is given by its files.  An input names a file, which is then the only listing, or a
directory, whose listings are all the files below it with the extension `il`.
-/

namespace PushGuard

/-- Files with their paths, as lists of names from the root of the tree. -/
structure FileTree where
  files : List (List String × ByteArray)

namespace FileTree

def splitPath (path : String) : List String := path.splitOn "/"

/-- Writes a file, in place of the one that was there. -/
def write (t : FileTree) (path : String) (content : ByteArray) : FileTree :=
  let names := (splitPath path).filter fun name => name != "" && name != "."
  ⟨(t.files.filter fun file => file.1 != names) ++ [(names, content)]⟩

/-- The tree after files have been written one after the other. -/
def ofPaths (files : List (String × ByteArray)) : FileTree :=
  files.foldl (fun t file => t.write file.1 file.2) ⟨[]⟩

def file? (t : FileTree) (path : List String) : Option ByteArray := t.files.lookup path

/-- The root is a directory, and so is what a path leads through. -/
def isDir (t : FileTree) (path : List String) : Bool :=
  path.isEmpty || t.files.any fun (file, _) => path.isPrefixOf file && file != path

/-- Follows the names of a path from a directory of the tree. -/
def follow (t : FileTree) : (dir names : List String) → Option (List String)
  | dir, [] => some dir
  | dir, name :: names =>
    if !t.isDir dir then none
    else if name = "" ∨ name = "." then t.follow dir names
    else if name = ".." then if dir.isEmpty then none else t.follow dir.dropLast names
    else
      let next := dir ++ [name]
      if t.isDir next || (t.file? next).isSome then t.follow next names else none

/-- The place that a path leads to.  Paths from the root of the machine lead out of the tree. -/
def resolve (t : FileTree) (path : String) : Option (List String) :=
  match splitPath path with
  | "" :: _ => none
  | names => t.follow [] names

/-- The file's name ends in `.il` behind at least one more character. -/
def isListingName (name : String) : Bool :=
  match name.toList.reverse with
  | 'l' :: 'i' :: '.' :: _ :: _ => true
  | _ => false

/-- The path of a file below a directory. -/
def joinPath (dir name : String) : String :=
  if dir.toList.getLast? == some '/' then dir ++ name else dir ++ "/" ++ name

/-- The listings that an input names, with the paths that reports show, in the order of these. -/
def listings (t : FileTree) (input : String) : List (String × ByteArray) :=
  match t.resolve input with
  | none => []
  | some path =>
    match t.file? path with
    | some content => [(input, content)]
    | none =>
      let below := t.files.filterMap fun (file, content) =>
        if path.isPrefixOf file && isListingName (file.getLastD "") then
          some (joinPath input (String.intercalate "/" (file.drop path.length)), content)
        else none
      below.mergeSort fun a b => !(b.1 < a.1)

end FileTree

end PushGuard
