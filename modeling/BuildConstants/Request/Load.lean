import BuildConstants.DocumentLibrary
import BuildConstants.Generation
import BuildConstants.Request.Reading

/-!
# Requests from files

A request file holds one document, which is a mapping. A document with a false value, such as an
empty one, counts as an empty mapping. Relative output directories lie beside the file.
-/

namespace BuildConstants

/-- How a run fails: with a fault of the program, or with an error of the library that reads
documents. -/
inductive Failure (ε : Type)
  | fault (e : Fault)
  | foreign (error : ε)

/-- What the system answers about a path beyond what the tree says: the error of looking at it, the
error of reading it, and what is said where its bytes are no text. -/
structure Access where
  stat : Path → Option SystemError
  read : Path → Option SystemError
  decoding : Path → Option String

/-- Every file can be looked at and read. -/
def Access.full : Access :=
  ⟨fun _ => none, fun _ => none, fun _ => none⟩

/-- All that a run relies on and that is no part of the program. -/
structure Host (ε : Type) where
  access : Access
  library : DocumentLibrary ε
  check : SyntaxCheck

variable {ε α : Type}

namespace Failure

def lift : Except Fault α → Except (Failure ε) α
  | .ok a => .ok a
  | .error e => .error (.fault e)

theorem lift_eq_ok_iff {x : Except Fault α} {a : α} :
    (lift x : Except (Failure ε) α) = .ok a ↔ x = .ok a := by
  cases x <;> simp [lift]

theorem lift_eq_error_iff {x : Except Fault α} {failure : Failure ε} :
    lift x = .error failure ↔ ∃ e, x = .error e ∧ failure = .fault e := by
  cases x <;> simp [lift, eq_comm]

end Failure

/-- Line breaks of every platform become line feeds. -/
def normalBreaks : List Char → List Char
  | '\r' :: '\n' :: rest => '\n' :: normalBreaks rest
  | '\r' :: rest => '\n' :: normalBreaks rest
  | c :: rest => c :: normalBreaks rest
  | [] => []

namespace Request

/-- The content of a request file. Nothing is found at a path that the system cannot be asked
about. -/
def readText (access : Access) (tree : FileTree) (p : Path) : Except Fault String :=
  if (FileTree.unusable? p).isSome then .error (.requestNotFound p.text)
  else match (access.stat p).or (tree.lookError? p) with
    | some e =>
      .error (if e.isAbsence then .requestNotFound p.text else .unreadable ⟨e, p.text, none⟩)
    | none => match tree.content? p, access.read p, access.decoding p with
      | none, _, _ => .error (.requestNotFound p.text)
      | some _, some e, _ => .error (.unreadable ⟨e, p.text, none⟩)
      | some _, none, some text => .error (.reported text)
      | some content, none, none => .ok content

def failureOf (file : String) : LibraryError ε → Failure ε
  | .malformed text => .fault (.malformedDocument file text)
  | .problem p => .fault (.document file p)
  | .value text => .fault (.reported text)
  | .foreign e => .foreign e

def readMapping (library : DocumentLibrary ε) (file content : String) :
    Except (Failure ε) Datum :=
  match library Scalar.constructors (String.ofList (normalBreaks content.toList)) with
  | .error e => .error (failureOf file e)
  | .ok d => match (if d.truth then d else .map []) with
    | .map entries => .ok (.map entries)
    | _ => .error (.fault (.documentNotMapping file))

def loadWith (host : Host ε) (tree : FileTree) (p : Path) (outputDir : Option Path)
    (language : Option String) : Except (Failure ε) Request := do
  let content ← Failure.lift (readText host.access tree p)
  let raw ← readMapping host.library p.text content
  Failure.lift (ofDatum raw p.parent outputDir language)

end Request

end BuildConstants
