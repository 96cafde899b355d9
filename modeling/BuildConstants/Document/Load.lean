import BuildConstants.Document.Value
import BuildConstants.Request.Load

/-!
# Requests from documents

A library that reads documents, and a host on which every file can be read and every source text
passes.
-/

namespace BuildConstants

/-- All errors of the library are problems, so it has none of its own. -/
def Document.library : DocumentLibrary Empty := fun constructors text =>
  match value constructors text with
  | .ok d => .ok d
  | .error p => .error (.problem p)

def Host.plain : Host Empty where
  access := .full
  library := Document.library
  check := .lenient

def Failure.toFault : Failure Empty → Fault
  | fault e => e
  | foreign e => nomatch e

namespace Request

def load (tree : FileTree) (p : Path) (outputDir : Option Path) (language : Option String) :
    Except Fault Request :=
  match loadWith .plain tree p outputDir language with
  | .ok r => .ok r
  | .error failure => .error failure.toFault

end Request

end BuildConstants
