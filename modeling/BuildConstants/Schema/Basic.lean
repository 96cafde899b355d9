import BuildConstants.Value.Datum

/-!
# Schemas

A schema says which configuration values are taken at a place and what they are converted to.
Alternatives are tried in order. The fields of a record have defaults or are required.
-/

namespace BuildConstants

inductive Schema
  | any
  | text
  | integer
  | double
  | boolean
  | oneOf (choices : List Datum)
  | member (enumeration : Enumeration)
  | optional (schema : Schema)
  | either (first second : Schema)
  | list (element : Schema)
  | map (key value : Schema)
  | items
  | entries
  | path
  | record (name : String) (fields : List (String × Schema × Option Datum))

namespace Schema

def required (name : String) (schema : Schema) : String × Schema × Option Datum :=
  (name, schema, none)

def defaulted (name : String) (schema : Schema) (value : Datum) : String × Schema × Option Datum :=
  (name, schema, some value)

def typeExpr : Schema :=
  .record "TypeCfg" [
    required "name" .text,
    defaulted "array" .boolean (.bool false),
    defaulted "nullable" .boolean (.bool false),
    defaulted "args" (.list .any) (.list [])]

def classEntry : Schema :=
  .record "ClassEntryCfg" [
    required "name" .text,
    defaulted "container" .boolean (.bool false)]

def constant : Schema :=
  .record "FieldCfg" [
    required "name" .text,
    required "type" .any,
    defaulted "value" .any .null,
    defaulted "expression" (.optional .text) .null]

def defaultOutputDir : String := "build/generated/bcfg"

def request : Schema :=
  .record "RequestCfg" [
    defaulted "fields" (.list .any) (.list []),
    defaulted "package" .text (.text ""),
    defaulted "class_name" .text (.text "BuildConfig"),
    defaulted "language" (.member .language) (.member (.language .kotlin)),
    defaulted "top_level" .boolean (.bool false),
    defaulted "visibility" (.member .visibility) (.member (.visibility .hidden)),
    defaulted "documentation" (.optional .text) .null,
    defaulted "generated_annotation" .boolean (.bool false),
    defaulted "output_dir" .text (.text defaultOutputDir),
    defaulted "types" (.map .text .any) (.map [])]

end Schema

end BuildConstants
