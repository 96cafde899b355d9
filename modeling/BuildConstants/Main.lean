import BuildConstants.CommandLine.Run

/-!
# Command line

The outermost layer: it takes the files that the arguments name into a tree, runs the program on
it, and writes the files that are new or changed.
-/

namespace BuildConstants.CommandLine

def pathText (t : FileTree) (l : Location) : String :=
  match t.below? l with
  | some names => String.intercalate "/" names
  | none => "/" ++ String.intercalate "/" l

/-- Files of a tree that another one does not hold. -/
def newFiles (before after : FileTree) : List (String × String) :=
  after.nodes.filterMap fun (l, node) =>
    match node with
    | .file content =>
      if before.node? l = some node then none else some (pathText after l, content)
    | .directory => none

def readFile? (name : String) : IO (Option String) := do
  try
    return some (← IO.FS.readFile name)
  catch _ => return none

def readFiles (home : Location) : List String → IO FileTree
  | [] => return .bare home
  | name :: rest => do
    let tree ← readFiles home rest
    match ← readFile? name with
    | some content => return tree.add name content
    | none => return tree

def writeFile (name content : String) : IO Unit := do
  IO.FS.createDirAll (Path.parse name).parent.text
  IO.FS.writeFile name content

end BuildConstants.CommandLine

open BuildConstants BuildConstants.CommandLine

def main (arguments : List String) : IO UInt32 := do
  let debug := !((← IO.getEnv "BCFG_DEBUG").getD "").isEmpty
  let home := (Path.parse (← IO.currentDir).toString).parts
  let before ← readFiles home arguments
  let result := run debug arguments before
  for (name, content) in newFiles before result.tree do
    writeFile name content
  IO.print result.output
  match result.ending with
  | .stopped code => return code.toUInt32
  | .finished code errors =>
    IO.eprint errors
    return code.toUInt32
  | .escaped fault =>
    IO.eprintln fault.message
    return 1
