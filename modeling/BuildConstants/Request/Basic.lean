import BuildConstants.ClassRegistry
import BuildConstants.Language
import BuildConstants.Path
import BuildConstants.Value.Tagging

/-!
# Requests

A request lists the constants to declare and says where and how. Names of constants are distinct:
each keeps the place of its first occurrence and the content of its last one.
-/

namespace BuildConstants

inductive Initial
  | literal (value : Tagged)
  | expression (code : String)

structure Constant where
  name : String
  type : TypeExpr
  initial : Initial

namespace Constant

def ofDatum (name : String) (type : TypeExpr) (value : Datum) : Except Fault Constant := do
  let tagged ← Tagged.ofDatum (some type) value
  return ⟨name, type, .literal tagged⟩

/-- Takes the place of the constant with its name, or goes to the end. -/
def put (kept : List Constant) (c : Constant) : List Constant :=
  if kept.any (·.name == c.name) then kept.map fun k => if k.name == c.name then c else k
  else kept ++ [c]

def distinct (cs : List Constant) : List Constant :=
  cs.foldl put []

@[simp] theorem distinct_nil : distinct [] = [] := rfl

theorem distinct_append_singleton (cs : List Constant) (c : Constant) :
    distinct (cs ++ [c]) = put (distinct cs) c := by
  simp [distinct]

end Constant

structure Request where
  outputDir : Path
  constants : List Constant
  packageName : String
  className : String
  documentation : Option String
  topLevel : Bool
  visibility : Visibility
  language : Language
  markGenerated : Bool
  classes : ClassRegistry

namespace Request

def defaultClassName : String := "BuildConfig"

def ofConstants (outputDir : Path) (constants : List Constant) : Request where
  outputDir := outputDir
  constants := Constant.distinct constants
  packageName := ""
  className := defaultClassName
  documentation := none
  topLevel := false
  visibility := .hidden
  language := .kotlin
  markGenerated := false
  classes := .empty

def isEmpty (r : Request) : Bool :=
  r.constants.isEmpty

def packageParts (r : Request) : List String :=
  if r.packageName.isEmpty then [] else Text.split '.' r.packageName

end Request

end BuildConstants
