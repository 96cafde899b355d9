import BuildConstants.Dialect.Basic
import BuildConstants.DocComment
import BuildConstants.Literal.Escape
import BuildConstants.Value.Equality
import BuildConstants.Text.Name

/-!
# Kotlin

Constants become properties of an object, or of the file itself. Names that are keywords or no
plain names stand between backticks.
-/

namespace BuildConstants.Kotlin

open Text

def keywords : List String := [
  "as", "break", "class", "continue", "do", "else", "false", "for", "fun", "if", "in",
  "interface", "is", "null", "object", "package", "return", "super", "this", "throw", "true",
  "try", "typealias", "typeof", "val", "var", "when", "while"]

def backtick : Char := '\x60'

def isForbidden (c : Char) : Bool :=
  [backtick, '.', ';', '[', ']', '/', '<', '>', ':', '\\', '\r', '\n'].contains c

def identifier (name : String) : Except Fault String :=
  if isPlainName isWordStart isWord name.toList && !keywords.contains name then .ok name
  else if name.isEmpty || trim name != name || name.toList.any isForbidden then
    .error (.notKotlinName name)
  else .ok (String.ofList (backtick :: (name.toList ++ [backtick])))

def primitiveName : ScalarKind → Except Fault String
  | .boolean => .ok "Boolean"
  | .byte => .ok "Byte"
  | .short => .ok "Short"
  | .char => .ok "Char"
  | .int => .ok "Int"
  | .long => .ok "Long"
  | .float => .ok "Float"
  | .double => .ok "Double"
  | k => .error (.noPrimitiveName k)

def nullMark (nullable : Bool) : String :=
  if nullable then "?" else ""

mutual

def typeName : ResolvedType → Except Fault String
  | .primitive k n => do
    let name ← primitiveName k
    return name ++ nullMark n
  | .string n => .ok ("String" ++ nullMark n)
  | .primitiveArray k n => do
    let name ← primitiveName k
    return name ++ "Array" ++ nullMark n
  | .array none _ => .error .noElementType
  | .array (some e) n => do
    let name ← typeName e
    return "Array<" ++ name ++ ">" ++ nullMark n
  | .list none n => .ok ("List<*>" ++ nullMark n)
  | .list (some e) n => do
    let name ← typeName e
    return "List<" ++ name ++ ">" ++ nullMark n
  | .set none n => .ok ("Set<*>" ++ nullMark n)
  | .set (some e) n => do
    let name ← typeName e
    return "Set<" ++ name ++ ">" ++ nullMark n
  | .named q [] _ n => .ok (q ++ nullMark n)
  | .named q (a :: rest) _ n => do
    let names ← typeNames (a :: rest)
    return q ++ "<" ++ String.intercalate ", " names ++ ">" ++ nullMark n

def typeNames : List ResolvedType → Except Fault (List String)
  | [] => .ok []
  | t :: rest => do
    let name ← typeName t
    let names ← typeNames rest
    return name :: names

end

def rule : ScalarKind → String
  | .char => "%C"
  | .string => "%S"
  | .long => "%LL"
  | .float => "%Lf"
  | _ => "%L"

def longMin : Int := -9223372036854775808

/-- There is no positive literal to negate for the least long; the suffix of the rule follows. -/
def longMinText : String := "-9223372036854775807L - 1"

def plain (s : Scalar) : Except Fault String :=
  if s.kind = .long && s.value.equalsInt longMin then .ok longMinText else Literal.plain s

def quoteString (s : String) : String :=
  Literal.enclose doubleQuote true s.toList

def quoteChar (c : Char) : String :=
  Literal.enclose singleQuote false [c]

def style : Literal.Style where
  rule := rule
  null := "null"
  quoteString := quoteString
  quoteChar := quoteChar
  primitiveArray k := ⟨k.name ++ "ArrayOf(", ")"⟩
  genericArray _ := .ok ⟨"arrayOf(", ")"⟩
  list := ⟨"listOf(", ")"⟩
  set := ⟨"setOf(", ")"⟩
  separator := ", "
  plain := plain

def declare (v : Visibility) (d : Declaration) : Except Fault String := do
  let type ← typeName d.type
  return v.name ++ " " ++ (if d.constant then "const " else "") ++ "val " ++ d.name ++ ": " ++ type
    ++ " = " ++ d.initializer

def indent : String := "  "

def packageLines (r : Request) : Except Fault (List String) :=
  match r.packageParts with
  | [] => .ok []
  | parts => do
    let names ← collect identifier parts
    return ["package " ++ String.intercalate "." names, ""]

/-- Declarations of the file itself, with an empty line between two of them. -/
def separated : List String → List String
  | [] => []
  | [l] => [l]
  | l :: rest => l :: "" :: separated rest

def objectLines (v : Visibility) (name : String) (declarations : List String) : List String :=
  let head := v.name ++ " object " ++ name
  if declarations.isEmpty then [head]
  else (head ++ " \x7b") :: (declarations.map (indent ++ ·) ++ ["\x7d"])

def assemble (r : Request) (ds : List Declaration) : Except Fault String := do
  let name ← identifier r.className
  let package ← packageLines r
  let declarations ← collect (declare r.visibility) ds
  if r.topLevel then
    let comments := match r.documentation with
      | some s => DocComment.lineComments s ++ [""]
      | none => []
    return joinLines (comments ++ package ++ separated declarations)
  else
    let comments := match r.documentation with
      | some s => DocComment.lines "" s
      | none => []
    return joinLines (package ++ comments ++ objectLines r.visibility name declarations)

def dialect : Dialect where
  language := .kotlin
  extension := ".kt"
  style := style
  typeName := typeName
  identifier := identifier
  declare := declare
  assemble := assemble
  remarks _ := []

end BuildConstants.Kotlin
