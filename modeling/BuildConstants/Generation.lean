import BuildConstants.Dialect.Catalog
import BuildConstants.FileTree.Write

/-!
# Generating source files

The source text is complete before anything is written, and exactly one file is written. On request
a parser of the target language looks at the text first.
-/

namespace BuildConstants

/-- What a parser of a language finds wrong with a text. The parsers are no part of this library. -/
abbrev SyntaxCheck : Type := Language → String → List String

def SyntaxCheck.lenient : SyntaxCheck := fun _ _ => []

namespace Request

def source (r : Request) : Except Fault String :=
  r.language.dialect.source r

/-- Remarks of the dialect; they come once all constants have their declarations. -/
def remarks (r : Request) : List String :=
  match r.language.dialect.emitAll r.classes r.constants with
  | .ok _ => r.language.dialect.remarks r
  | .error _ => []

def outputPath (r : Request) : Path :=
  r.language.dialect.outputPath r

/-- A text that the parser takes. Parsers read encoded text. -/
def accept (check : SyntaxCheck) (r : Request) (text : String) : Except Fault String :=
  match FileTree.unencodable? 0 text.toList with
  | some (first, last, code) => .error (.unencodable first last code)
  | none => match check r.language text with
    | [] => .ok text
    | problems => .error (.ungrammatical r.outputPath.text problems)

def verifiedSource (check : SyntaxCheck) (verify : Bool) (r : Request) : Except Fault String := do
  let text ← r.source
  if verify then r.accept check text else return text

/-- Writes the source file; the tree is as before if there is no source text. -/
def generate (r : Request) (t : FileTree) : FileTree × Except Fault Path :=
  match r.source with
  | .error e => (t, .error e)
  | .ok text => match t.write r.outputPath text with
    | (t, some e) => (t, .error e)
    | (t, none) => (t, .ok r.outputPath)

end Request

end BuildConstants
