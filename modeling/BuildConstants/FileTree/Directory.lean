import BuildConstants.FileTree.Basic

/-!
# Making directories

Missing directories are made from the top down. What was made before an error stays.
-/

namespace BuildConstants.FileTree

def makeDirectory (t : FileTree) (p : Path) : Except SystemError FileTree :=
  match t.target p with
  | .error e => .error e
  | .ok (.above _) => .error .exists
  | .ok (.entry l) => match t.node? l with
    | some _ => .error .exists
    | none => .ok (t.put l .directory)

/-- An error does not count where the directory exists. -/
def unlessDirectory (t : FileTree) (p : Path) (e : SystemError) : Option FileError :=
  if t.isDirectory p then none else some ⟨e, p.text, none⟩

/-- Makes all directories of a path, whose parts come in reverse. -/
def makeDirectories (root : PathRoot) : List String → FileTree → FileTree × Option FileError
  | [], t => (t, none)
  | name :: above, t =>
    let p : Path := ⟨root, (name :: above).reverse⟩
    match t.makeDirectory p with
    | .ok t => (t, none)
    | .error .noEntry => match makeDirectories root above t with
      | (t, some e) => (t, some e)
      | (t, none) => match t.makeDirectory p with
        | .ok t => (t, none)
        | .error .noEntry => (t, some ⟨.noEntry, p.text, none⟩)
        | .error e => (t, t.unlessDirectory p e)
    | .error e => (t, t.unlessDirectory p e)

def ensureDirectory (t : FileTree) (p : Path) : FileTree × Option FileError :=
  makeDirectories p.root p.parts.reverse t

def add (t : FileTree) (name content : String) : FileTree :=
  let p := Path.parse name
  let t := (t.ensureDirectory p.parent).1
  match t.target p with
  | .ok (.entry l) => t.put l (.file content)
  | _ => t

/-- A tree of the given files; one without content is a directory. -/
def ofFilesAt (home : Location) (files : List (String × Option String)) : FileTree :=
  files.foldl (fun t (name, content) =>
    match content with
    | none => (t.ensureDirectory (Path.parse name)).1
    | some content => t.add name content) (bare home)

/-- A tree of files in a working directory that is named for the purpose. -/
def ofFiles (files : List (String × Option String)) : FileTree :=
  ofFilesAt ["home", "project"] files

end BuildConstants.FileTree
