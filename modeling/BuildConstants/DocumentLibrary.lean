import BuildConstants.Value.Reading

/-!
# Document libraries

Documents are read by a library that is no part of the program. It gets the text of a document and
a constructor for every tag that it does not know, and it may fail in ways of its own, for which `ε`
stands.
-/

namespace BuildConstants

/-- Makes a scalar of the line and the text of a node. -/
abbrev Constructor : Type := Nat → String → Except DocumentProblem Scalar

namespace Scalar

def constructors : List (String × Constructor) :=
  taggedKinds.map fun k => ("!" ++ k.name, construct k)

end Scalar

inductive LibraryError (ε : Type)
  | malformed (text : String)
  | problem (problem : DocumentProblem)
  /-- A value error that is not about the document as such. -/
  | value (text : String)
  | foreign (error : ε)

abbrev DocumentLibrary (ε : Type) : Type :=
  List (String × Constructor) → String → Except (LibraryError ε) Datum

variable {ε : Type}

/-- The errors that a library is known to raise. Problems are those of its constructors. -/
inductive LibraryError.Documented (constructors : List (String × Constructor)) :
    LibraryError ε → Prop
  | malformed (text : String) : Documented constructors (.malformed text)
  | value (text : String) : Documented constructors (.value text)
  | problem {tag s : String} {construct : Constructor} {line : Nat} {p : DocumentProblem}
      (hmem : (tag, construct) ∈ constructors) (h : construct line s = .error p) :
      Documented constructors (.problem p)

def DocumentLibrary.Documented (library : DocumentLibrary ε) : Prop :=
  ∀ constructors text e, library constructors text = .error e → e.Documented constructors

end BuildConstants
