import BuildConstants.CommandLine.Program
import BuildConstants.Document.Load

/-!
# Runs on a plain host
-/

namespace BuildConstants.CommandLine

abbrev Result : Type := RunResult Fault

def Ending.map {φ ψ : Type} (f : φ → ψ) : Ending φ → Ending ψ
  | stopped code => .stopped code
  | finished code errors => .finished code errors
  | escaped failure => .escaped (f failure)

def run (debug : Bool) (arguments : List String) (tree : FileTree) : Result :=
  let result := runWith .plain debug arguments tree
  ⟨result.ending.map Failure.toFault, result.output, result.tree⟩

end BuildConstants.CommandLine
