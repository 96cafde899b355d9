import BuildConstants.Request.Basic
import BuildConstants.Schema.Record

/-!
# Requests from configuration values

The request is read first as a whole, then its constants in order, then its registered classes.
Every error names the place of the value that it is about.
-/

namespace BuildConstants

namespace TypeExpr

def parseAt (place : List String) (s : String) : Except Fault TypeExpr :=
  match parse s with
  | .ok t => .ok t
  | .error e => .error (.config place (.shorthand e))

mutual

def read (place : List String) : Datum → Except Fault TypeExpr
  | .text s => parseAt place s
  | .member m => parseAt place m.name
  | .map entries => do
    let form ← Schema.typeExpr.build "TypeCfg" place (.map entries)
    let arguments ← readArgumentEntry (place ++ ["args"]) entries
    return ⟨form.textField "name", form.flagField "array", form.flagField "nullable", arguments⟩
  | d => .error (.config place (.notAType d.typeName))

def readArgumentEntry (place : List String) :
    List (Datum × Datum) → Except Fault (List TypeExpr)
  | [] => .ok []
  | (k, .list items) :: rest =>
    if k.text? == some "args" then readAll place 0 items else readArgumentEntry place rest
  | _ :: rest => readArgumentEntry place rest

def readAll (place : List String) : Nat → List Datum → Except Fault (List TypeExpr)
  | _, [] => .ok []
  | i, d :: rest => do
    let t ← read (place ++ [Nat.repr i]) d
    let ts ← readAll place (i + 1) rest
    return t :: ts

end

end TypeExpr

namespace ClassRegistry

def readEntry (place : List String) : Datum → Except Fault ClassEntry
  | .text s => .ok ⟨s, false⟩
  | .member m => .ok ⟨m.name, false⟩
  | d => do
    let form ← Schema.classEntry.build "ClassEntryCfg" place d
    return ⟨form.textField "name", form.flagField "container"⟩

def read (r : ClassRegistry) : List (Datum × Datum) → Except Fault ClassRegistry
  | [] => .ok r
  | (k, v) :: rest => do
    let entry ← readEntry ["types", k.display] v
    (r.register k.display entry).read rest

end ClassRegistry

namespace Constant

/-- A constant has a value or an expression; null counts as no value. -/
def read (place : List String) (d : Datum) : Except Fault Constant := do
  let form ← Schema.constant.build "FieldCfg" place d
  let type ← TypeExpr.read (place ++ ["type"]) (form.recordField "type")
  let name := form.textField "name"
  match form.optionalTextField "expression", form.recordField "value" with
  | some code, .null => return ⟨name, type, .expression code⟩
  | some _, _ => .error (.config place .valueAndExpression)
  | none, value => ofDatum name type value

def readAll : Nat → List Datum → Except Fault (List Constant)
  | _, [] => .ok []
  | i, d :: rest => do
    let c ← read ["fields", Nat.repr i] d
    let cs ← readAll (i + 1) rest
    return c :: cs

end Constant

namespace Request

def languageField (d : Datum) : Language :=
  match d.recordField "language" with
  | .member m => (Language.ofName? m.name).getD .kotlin
  | _ => .kotlin

def visibilityField (d : Datum) : Visibility :=
  match d.recordField "visibility" with
  | .member m => (Visibility.ofName? m.name).getD .hidden
  | _ => .hidden

/-- The language of a request unless another one is named. -/
def chooseLanguage (form : Datum) : Option String → Except Fault Language
  | none => .ok (languageField form)
  | some s => do
    let other ← Schema.request.build "RequestCfg" [] (.map [(.text "language", .text s)])
    return languageField other

/-- A request from a mapping. A relative output directory of the mapping lies in `baseDir`; an
explicit one replaces it. -/
def ofDatum (raw : Datum) (baseDir : Path) (outputDir : Option Path) (language : Option String) :
    Except Fault Request := do
  let form ← Schema.request.build "RequestCfg" [] raw
  let language ← chooseLanguage form language
  let constants ← Constant.readAll 0 (form.listField "fields")
  let classes ← ClassRegistry.empty.read (form.mapField "types")
  return {
    outputDir := outputDir.getD (baseDir.child (form.textField "output_dir"))
    constants := Constant.distinct constants
    packageName := form.textField "package"
    className := form.textField "class_name"
    documentation := form.optionalTextField "documentation"
    topLevel := form.flagField "top_level"
    visibility := visibilityField form
    language := language
    markGenerated := form.flagField "generated_annotation"
    classes := classes }

end Request

end BuildConstants
