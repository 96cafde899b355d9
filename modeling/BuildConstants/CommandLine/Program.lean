import BuildConstants.CommandLine.Invocation
import BuildConstants.Request.Load

/-!
# The program

A run reads and writes a tree of files and gives what the program prints. Remarks go to the error
output; those for debugging are left out unless they are asked for.
-/

namespace BuildConstants

open Text

/-- Faults that no message is prepared for. -/
def Fault.isUnexpected : Fault → Bool
  | .unreadable _ => true
  | .number (.notNumeric _) | .number .tooLarge => true
  | .noElementType | .noPrimitiveName _ | .incomparable .. => true
  | .document _ problem => match problem with
    | .number (.notNumeric _) | .number .tooLarge => true
    | .emptyNumber | .unknownBoolean _ | .unusableKey => true
    | _ => false
  | _ => false

namespace CommandLine

inductive Remark
  | debug (text : String)
  | info (text : String)
  | warning (text : String)

namespace Remark

def isDebug : Remark → Bool
  | debug _ => true
  | _ => false

def line : Remark → String
  | debug s => "[DEBUG] " ++ s ++ "\n"
  | info s => "[INFO] " ++ s ++ "\n"
  | warning s => "[WARNING] " ++ s ++ "\n"

def lines (debugging : Bool) (rs : List Remark) : String :=
  String.join ((rs.filter fun r => debugging || !r.isDebug).map line)

def loaded (r : Request) (p : Path) : Remark :=
  debug ("Loaded " ++ Nat.repr r.constants.length ++ " fields from " ++ p.text)

def skipped (p : Path) : Remark :=
  info ("No fields in " ++ p.text ++ ", skipping")

def generating (r : Request) : Remark :=
  debug ("Generating " ++ r.className ++ " for fields "
    ++ (Datum.list (r.constants.map fun c => .text c.name)).written)

def wrote (source : String) (p : Path) : Remark :=
  debug ("Wrote " ++ Nat.repr source.length ++ " chars to " ++ p.text)

def generated (r : Request) (p : Path) : Remark :=
  info ("Generated " ++ p.text ++ " (" ++ Nat.repr r.constants.length ++ " fields)")

end Remark

structure Report (ε : Type) where
  remarks : List Remark
  outcome : Except (Failure ε) String
  tree : FileTree

variable {ε : Type}

def sourceRemarks (r : Request) : List Remark :=
  .generating r :: r.remarks.map .warning

def reportRender (check : SyntaxCheck) (verify : Bool) (r : Request) (tree : FileTree) :
    Report ε :=
  ⟨sourceRemarks r, Failure.lift (r.verifiedSource check verify), tree⟩

def reportGenerate (check : SyntaxCheck) (verify : Bool) (r : Request) (tree : FileTree) :
    Report ε :=
  match r.verifiedSource check verify with
  | .error e => ⟨sourceRemarks r, .error (.fault e), tree⟩
  | .ok source => match r.generate tree with
    | (tree, .error e) => ⟨sourceRemarks r, .error (.fault e), tree⟩
    | (tree, .ok p) =>
      ⟨sourceRemarks r ++ [.wrote source p, .generated r p], .ok (p.text ++ "\n"), tree⟩

def withRequest (host : Host ε) (source : Source) (outputDir : Option Path) (tree : FileTree)
    (report : Request → Report ε) : Report ε :=
  match Request.loadWith host tree source.request outputDir source.language with
  | .error failure => ⟨[], .error failure, tree⟩
  | .ok r =>
    let rest := report r
    { rest with remarks := .loaded r source.request :: rest.remarks }

def typeNames : String :=
  joinLines ((Builtin.all.map Builtin.name).mergeSort)

def Command.report (host : Host ε) (tree : FileTree) : Command → Report ε
  | types => ⟨[], .ok typeNames, tree⟩
  | render source => withRequest host source none tree fun r =>
    reportRender host.check source.verify r tree
  | generate source outputDir => withRequest host source outputDir tree fun r =>
    if r.isEmpty then ⟨[.skipped source.request], .ok "", tree⟩
    else reportGenerate host.check source.verify r tree

inductive Ending (φ : Type)
  /-- The command line was not carried out. -/
  | stopped (code : Nat)
  | finished (code : Nat) (errors : String)
  | escaped (failure : φ)

/-- How a run ends, what it prints and the files it leaves; `φ` is the sort of what may escape. -/
structure RunResult (φ : Type) where
  ending : Ending φ
  output : String
  tree : FileTree

def Report.result (debugging : Bool) (r : Report ε) : RunResult (Failure ε) :=
  let remarks := Remark.lines debugging r.remarks
  match r.outcome with
  | .ok output => ⟨.finished 0 remarks, output, r.tree⟩
  | .error (.foreign e) => ⟨.escaped (.foreign e), "", r.tree⟩
  | .error (.fault e) =>
    if e.isUnexpected then ⟨.escaped (.fault e), "", r.tree⟩
    else ⟨.finished 2 (remarks ++ trimEnd e.message ++ "\n"), "", r.tree⟩

/-- One run of the program on a host; `debug` asks for all remarks. -/
def runWith (host : Host ε) (debug : Bool) (arguments : List String) (tree : FileTree) :
    RunResult (Failure ε) :=
  match Invocation.parse arguments with
  | .error .misused => ⟨.stopped 2, "", tree⟩
  | .error (.answered output) => ⟨.stopped 0, output, tree⟩
  | .ok invocation => (invocation.command.report host tree).result (debug || invocation.debug)

end CommandLine

end BuildConstants
