import BuildConstants.CommandLine.Options
import BuildConstants.Language
import BuildConstants.Path

/-!
# Invocations

An invocation is a command line that has been understood. Options of the program stand in front of
the command, those of a command behind it.
-/

namespace BuildConstants.CommandLine

/-- Where a request comes from, the language that replaces its own, and whether its source text is
verified. -/
structure Source where
  request : Path
  language : Option String
  verify : Bool

inductive Command
  | types
  | render (source : Source)
  | generate (source : Source) (outputDir : Option Path)

structure Invocation where
  debug : Bool
  command : Command

def version : String := "0.1.0"

def usage : String :=
  "usage: bcfg [-h] [-v] [--debug] \x7bgenerate,render,types\x7d ...\n"

def help {σ : Type} : Rule σ := ⟨["-h", "--help"], .answer usage⟩

def programRules : List (Rule Bool) := [
  help,
  ⟨["-v", "--version"], .answer ("bcfg " ++ version ++ "\n")⟩,
  ⟨["--debug"], .flag fun _ => true⟩]

structure Settings where
  request : String
  language : Option String
  verify : Bool
  outputDir : Option String

namespace Settings

def none : Settings := ⟨"", .none, false, .none⟩

def setLanguage (name : String) (s : Settings) : Option Settings :=
  if (Language.ofName? name).isSome then some { s with language := some name } else .none

def source (s : Settings) : Source :=
  ⟨.parse s.request, s.language, s.verify⟩

end Settings

def renderRules : List (Rule Settings) := [
  help,
  ⟨["--language"], .value Settings.setLanguage⟩,
  ⟨["--verify"], .flag fun s => { s with verify := true }⟩]

def generateRules : List (Rule Settings) :=
  renderRules ++ [⟨["-o", "--output-dir"], .value fun p s => some { s with outputDir := some p }⟩]

def readSettings (rules : List (Rule Settings)) (arguments : List String) :
    Except Stop Settings := do
  read rules (.vacant fun p s => { s with request := p }) false none .none
    (← classifyAll rules arguments)

namespace Command

def parse (name : String) (arguments : List String) : Except Stop Command :=
  match name with
  | "types" => do
    let rules : List (Rule Unit) := [help]
    read rules .closed false none () (← classifyAll rules arguments)
    return types
  | "render" => do
    let s ← readSettings renderRules arguments
    return render s.source
  | "generate" => do
    let s ← readSettings generateRules arguments
    return generate s.source (s.outputDir.map .parse)
  | _ => .error .misused

end Command

namespace Invocation

def parse (arguments : List String) : Except Stop Invocation := do
  let pieces ← classifyAll programRules arguments
  match ← readLeading programRules false false (pieces.zip arguments) with
  | (_, _, []) => .error .misused
  | (debug, surplus, name :: rest) =>
    let command ← Command.parse name rest
    if surplus then .error .misused else return ⟨debug, command⟩

end Invocation

end BuildConstants.CommandLine
