import BuildConstants.Fault
import BuildConstants.Path
import BuildConstants.Text.Surrogate

/-!
# File trees

A tree holds directories and text files at locations, which are lists of names from the top.
Relative paths start at its working directory, which exists with all directories above it; only what
lies below it is listed. Names and paths of too many bytes lead nowhere.
-/

namespace BuildConstants

def byteCount (c : Char) : Nat :=
  if Text.isByteStandIn c then 1 else c.utf8Size

def nameSize (name : String) : Nat :=
  (name.toList.map byteCount).foldr (· + ·) 0

def isOverlong (name : String) : Bool :=
  255 < nameSize name

namespace Path

/-- The bytes of a path. A slash or the end counts behind each part. -/
def size (p : Path) : Nat :=
  (rootText p.root).length + (p.parts.map fun part => nameSize part + 1).foldr (· + ·) 0

def isTooLong (p : Path) : Bool :=
  4096 < p.size

end Path

inductive FileNode
  | directory
  | file (content : String)
  deriving DecidableEq

abbrev Location : Type := List String

structure FileTree where
  home : Location
  nodes : List (Location × FileNode)

namespace FileTree

def bare (home : Location) : FileTree := ⟨home, []⟩

def node? (t : FileTree) (l : Location) : Option FileNode :=
  if l.isPrefixOf t.home then some .directory
  else (t.nodes.find? fun e => e.1 == l).map (·.2)

def erase (t : FileTree) (l : Location) : FileTree :=
  { t with nodes := t.nodes.filter fun e => e.1 != l }

def put (t : FileTree) (l : Location) (node : FileNode) : FileTree :=
  { t with nodes := (l, node) :: (t.erase l).nodes }

@[simp] theorem home_erase (t : FileTree) (l : Location) : (t.erase l).home = t.home := rfl

@[simp] theorem home_put (t : FileTree) (l : Location) (node : FileNode) :
    (t.put l node).home = t.home := rfl

theorem node?_put_self (t : FileTree) {l : Location} (node : FileNode)
    (h : l.isPrefixOf t.home = false) : (t.put l node).node? l = some node := by
  simp [node?, put, h]

theorem node?_erase_of_ne (t : FileTree) {l m : Location} (h : m ≠ l) :
    (t.erase l).node? m = t.node? m := by
  have hfind : ((t.erase l).nodes.find? fun e => e.1 == m) = t.nodes.find? fun e => e.1 == m := by
    unfold erase
    induction t.nodes with
    | nil => rfl
    | cons e rest ih =>
      by_cases hl : e.1 = l
      · have hm : e.1 ≠ m := fun hm => h (hm.symm.trans hl)
        simpa [hl, h.symm] using ih
      · by_cases hm : e.1 = m
        · simp [hm, h]
        · simpa [hl, hm] using ih
  simp [node?, hfind]

theorem node?_put_of_ne (t : FileTree) (node : FileNode) {l m : Location} (h : m ≠ l) :
    (t.put l node).node? m = t.node? m := by
  rw [← node?_erase_of_ne t h]
  simp [node?, put, h.symm]

/-- Follows names through directories; `..` leads to the directory above. -/
def walk (t : FileTree) : Location → List String → Except SystemError Location
  | l, [] => .ok l
  | l, name :: rest =>
    if name = ".." then t.walk l.dropLast rest
    else if isOverlong name then .error .nameTooLong
    else match t.node? (l ++ [name]) with
      | some .directory => t.walk (l ++ [name]) rest
      | some (.file _) => .error .notDirectory
      | none => .error .noEntry

def start (t : FileTree) (p : Path) : Location :=
  if p.root = .relative then t.home else []

/-- What the last part of a path leads to: a directory above, or an entry of a directory. -/
inductive Target
  | above (l : Location)
  | entry (l : Location)

/-- Only the parts before the last one have to exist. -/
def target (t : FileTree) (p : Path) : Except SystemError Target :=
  if p.isTooLong then .error .nameTooLong
  else match p.name? with
    | none => .ok (.above (t.start p))
    | some name => match t.walk (t.start p) p.parts.dropLast with
      | .error e => .error e
      | .ok l =>
        if name = ".." then .ok (.above l.dropLast)
        else if isOverlong name then .error .nameTooLong
        else .ok (.entry (l ++ [name]))

def isDirectory (t : FileTree) (p : Path) : Bool :=
  !p.isTooLong && (t.walk (t.start p) p.parts).isOk

def content? (t : FileTree) (p : Path) : Option String :=
  match t.target p with
  | .ok (.entry l) => match t.node? l with
    | some (.file content) => some content
    | _ => none
  | _ => none

/-- The error of looking at a path. A missing last part is no error. -/
def lookError? (t : FileTree) (p : Path) : Option SystemError :=
  match t.target p with
  | .error e => some e
  | .ok _ => none

theorem lookError?_of_content? {t : FileTree} {p : Path} {content : String}
    (h : t.content? p = some content) : t.lookError? p = none := by
  unfold content? at h
  unfold lookError?
  split at h
  · rename_i htarget
    rw [htarget]
  · cases h

/-- The names that lead from the working directory to a location below it. -/
def below? (t : FileTree) (l : Location) : Option (List String) :=
  if t.home.isPrefixOf l then some (l.drop t.home.length) else none

/-- A line of a listing: directories end with a slash and have no content. -/
def listed (t : FileTree) (e : Location × FileNode) : Option (String × Option String) :=
  (t.below? e.1).map fun names =>
    let name := String.intercalate "/" names
    match e.2 with
    | .directory => (name ++ "/", none)
    | .file content => (name, some content)

/-- All below the working directory, in the order of the names. -/
def listing (t : FileTree) : List (String × Option String) :=
  (t.nodes.filterMap t.listed).mergeSort fun a b => !(b.1 < a.1)

end FileTree

end BuildConstants
