import BuildConstants.FileTree.Directory
import BuildConstants.Text.Surrogate

/-!
# Writing files

A file is written to a temporary sibling, which then takes the name of the file, so that a failure
never leaves half of a file behind.
-/

namespace BuildConstants.FileTree

open Text

def temporarySuffix : String := ".tmp"

/-- Position, end and code point of the first run of characters that have no encoding. -/
def unencodable? : Nat → List Char → Option (Nat × Nat × Nat)
  | _, [] => none
  | i, c :: rest =>
    if isStandIn c then some (i, i + (rest.takeWhile isStandIn).length, codePoint c)
    else unencodable? (i + 1) rest

/-- The same in a path, in which bytes of names have an encoding. -/
def unencodableName? : Nat → List Char → Option (Nat × Nat × Nat)
  | _, [] => none
  | i, c :: rest =>
    if isStandIn c && !isByteStandIn c then
      some (i, i + (rest.takeWhile isStandIn).length, codePoint c)
    else unencodableName? (i + 1) rest

/-- Why the system cannot be asked about a path. -/
def unusable? (p : Path) : Option Fault :=
  match unencodableName? 0 p.text.toList with
  | some (first, last, code) => some (.unencodablePath first last code)
  | none => if p.text.toList.contains '\x00' then some .nulInPath else none

theorem fault_of_unusable? {p : Path} {e : Fault} (h : unusable? p = some e) :
    (∃ first last code, e = .unencodablePath first last code) ∨ e = .nulInPath := by
  unfold unusable? at h
  split at h
  · rename_i first last code _
    exact .inl ⟨first, last, code, (Option.some.inj h).symm⟩
  · split at h
    · exact .inr (Option.some.inj h).symm
    · cases h

/-- Removes a file; directories stay. -/
def removeFile (t : FileTree) (p : Path) : FileTree :=
  match t.target p with
  | .ok (.entry l) => match t.node? l with
    | some (.file _) => t.erase l
    | _ => t
  | _ => t

def openFile (t : FileTree) (p : Path) : Except SystemError (FileTree × Location) :=
  match t.target p with
  | .error e => .error e
  | .ok (.above _) => .error .isDirectory
  | .ok (.entry l) => match t.node? l with
    | some .directory => .error .isDirectory
    | _ => .ok (t.put l (.file ""), l)

/-- Gives a file another name, which no directory may have. -/
def rename (t : FileTree) (source : Location) (content : String) (p : Path) :
    Except SystemError FileTree :=
  match t.target p with
  | .error e => .error e
  | .ok (.above _) => .error .busy
  | .ok (.entry l) => match t.node? l with
    | some .directory => .error .isDirectory
    | _ => .ok ((t.erase source).put l (.file content))

def writeThrough (t : FileTree) (p temporary : Path) (content : String) :
    FileTree × Option Fault :=
  match t.openFile temporary with
  | .error e => (t.removeFile temporary, some (.unwritable p.text ⟨e, temporary.text, none⟩))
  | .ok (t, l) => match unencodable? 0 content.toList with
    | some (first, last, code) => (t, some (.unencodable first last code))
    | none => match (t.put l (.file content)).rename l content p with
      | .ok t => (t, none)
      | .error e => (t.erase l, some (.unwritable p.text ⟨e, temporary.text, some p.text⟩))

/-- Writes a file below directories that are made where they are missing. The temporary file is
removed after every error of the system, for which its path has to be usable. -/
def write (t : FileTree) (p : Path) (content : String) : FileTree × Option Fault :=
  match p.withSuffix? temporarySuffix with
  | none => (t, some (.emptyFileName p.text))
  | some temporary => match unusable? p.parent with
    | some e => (t, some e)
    | none => match t.ensureDirectory p.parent, unusable? temporary with
      | (t, _), some e => (t, some e)
      | (t, some e), none => (t.removeFile temporary, some (.unwritable p.text e))
      | (t, none), none => t.writeThrough p temporary content

end BuildConstants.FileTree
