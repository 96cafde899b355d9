import BuildConstants.Text.Split

/-!
# Paths

A path is a root mark and its parts. Empty parts and `.` are dropped when a text is read, `..` is
kept. Two leading slashes are a root of their own. Joining an absolute path replaces what stands
before it.
-/

namespace BuildConstants

inductive PathRoot
  | relative
  | slash
  | doubleSlash
  deriving DecidableEq

structure Path where
  root : PathRoot
  parts : List String
  deriving DecidableEq

namespace Path

def rootOf (cs : List Char) : PathRoot :=
  match (cs.takeWhile (· == '/')).length with
  | 0 => .relative
  | 2 => .doubleSlash
  | _ => .slash

def parse (s : String) : Path :=
  ⟨rootOf s.toList, (Text.split '/' s).filter fun part => part != "" && part != "."⟩

def rootText : PathRoot → String
  | .relative => ""
  | .slash => "/"
  | .doubleSlash => "//"

def text (p : Path) : String :=
  if p.root = .relative && p.parts.isEmpty then "."
  else rootText p.root ++ String.intercalate "/" p.parts

def join (p q : Path) : Path :=
  if q.root = .relative then ⟨p.root, p.parts ++ q.parts⟩ else q

def child (p : Path) (s : String) : Path :=
  p.join (parse s)

def parent (p : Path) : Path :=
  ⟨p.root, p.parts.dropLast⟩

def name? (p : Path) : Option String :=
  p.parts.getLast?

def withSuffix? (p : Path) (suffix : String) : Option Path :=
  p.name?.map fun name => ⟨p.root, p.parts.dropLast ++ [name ++ suffix]⟩

theorem parent_withSuffix? {p q : Path} {suffix : String} (h : p.withSuffix? suffix = some q) :
    q.parent = p.parent := by
  simp only [withSuffix?, Option.map_eq_some_iff] at h
  obtain ⟨_, _, rfl⟩ := h
  simp [parent]

theorem join_relative {p q : Path} (h : q.root = .relative) :
    p.join q = ⟨p.root, p.parts ++ q.parts⟩ := by
  simp [join, h]

end Path

end BuildConstants
