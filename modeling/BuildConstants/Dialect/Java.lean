import BuildConstants.Dialect.Basic
import BuildConstants.DocComment
import BuildConstants.Literal.Escape
import BuildConstants.Text.Name

/-!
# Java

Constants become static final fields of a final class that has no instances. There are no quoted
identifiers, so keywords and other names are refused. Primitives are boxed when they may be null
or stand as type arguments.
-/

namespace BuildConstants.Java

open Text

def keywords : List String := [
  "abstract", "assert", "boolean", "break", "byte", "case", "catch", "char", "class", "const",
  "continue", "default", "do", "double", "else", "enum", "extends", "final", "finally", "float",
  "for", "goto", "if", "implements", "import", "instanceof", "int", "interface", "long",
  "native", "new", "package", "private", "protected", "public", "return", "short", "static",
  "strictfp", "super", "switch", "synchronized", "this", "throw", "throws", "transient", "try",
  "void", "volatile", "while", "_", "true", "false", "null"]

def isNameStart (c : Char) : Bool :=
  isWordStart c || c == '$'

def isNamePart (c : Char) : Bool :=
  isWord c || c == '$'

def identifier (name : String) : Except Fault String :=
  if keywords.contains name then .error (.reservedWord name)
  else if isPlainName isNameStart isNamePart name.toList then .ok name
  else .error (.notJavaName name)

def boxedName : ScalarKind → Except Fault String
  | .boolean => .ok "Boolean"
  | .byte => .ok "Byte"
  | .short => .ok "Short"
  | .char => .ok "Character"
  | .int => .ok "Integer"
  | .long => .ok "Long"
  | .float => .ok "Float"
  | .double => .ok "Double"
  | k => .error (.noPrimitiveName k)

mutual

def typeName (boxed : Bool) : ResolvedType → Except Fault String
  | .primitive k n => if boxed || n then boxedName k else .ok k.name
  | .string _ => .ok "String"
  | .primitiveArray k _ => .ok (k.name ++ "[]")
  | .array none _ => .error .noElementType
  | .array (some e) _ => do
    let name ← typeName true e
    return name ++ "[]"
  | .list none _ => .ok "java.util.List<?>"
  | .list (some e) _ => do
    let name ← typeName true e
    return "java.util.List<" ++ name ++ ">"
  | .set none _ => .ok "java.util.Set<?>"
  | .set (some e) _ => do
    let name ← typeName true e
    return "java.util.Set<" ++ name ++ ">"
  | .named q [] _ _ => .ok q
  | .named q (a :: rest) _ _ => do
    let names ← boxedNames (a :: rest)
    return q ++ "<" ++ String.intercalate ", " names ++ ">"

def boxedNames : List ResolvedType → Except Fault (List String)
  | [] => .ok []
  | t :: rest => do
    let name ← typeName true t
    let names ← boxedNames rest
    return name :: names

end

def beforeArguments (s : String) : String :=
  String.ofList (s.toList.takeWhile (· != '<'))

/-- The type without its arguments, as array creation needs it. -/
def erasure : ResolvedType → Except Fault String
  | .array none _ => .error .noElementType
  | .array (some e) _ => do
    let name ← erasure e
    return name ++ "[]"
  | .primitive k _ => boxedName k
  | .string _ => .ok "String"
  | .primitiveArray k _ => .ok (k.name ++ "[]")
  | t => do
    let name ← typeName false t
    return beforeArguments name

def rule : ScalarKind → String
  | .byte => "(byte) %L"
  | .short => "(short) %L"
  | .char => "%C"
  | .string => "%S"
  | .long => "%LL"
  | .float => "%Lf"
  | _ => "%L"

def quoteString (s : String) : String :=
  Literal.enclose doubleQuote false s.toList

def quoteChar (c : Char) : String :=
  Literal.enclose singleQuote false [c]

def genericArray : Option ResolvedType → Except Fault Literal.Template.Brackets
  | none => .error .noElementType
  | some e => do
    let name ← erasure e
    return ⟨"new " ++ name ++ "[] \x7b", "\x7d"⟩

def style : Literal.Style where
  rule := rule
  null := "null"
  quoteString := quoteString
  quoteChar := quoteChar
  primitiveArray k := ⟨"new " ++ k.name ++ "[] \x7b", "\x7d"⟩
  genericArray := genericArray
  list := ⟨"java.util.Arrays.asList(", ")"⟩
  set := ⟨"new java.util.LinkedHashSet<>(java.util.Arrays.asList(", "))"⟩
  separator := ", "
  plain := Literal.plain

def modifier : Visibility → String
  | .exposed => "public "
  | .hidden => ""

def declare (v : Visibility) (d : Declaration) : Except Fault String := do
  let type ← typeName false d.type
  return modifier v ++ "static final " ++ type ++ " " ++ d.name ++ " = " ++ d.initializer ++ ";"

def indent : String := "  "

def generatedMark : String :=
  "@javax.annotation.processing.Generated(\"bcfg\")"

def packageLines (r : Request) : Except Fault (List String) :=
  match r.packageParts with
  | [] => .ok []
  | parts => do
    let names ← collect identifier parts
    return ["package " ++ String.intercalate "." names ++ ";", ""]

def classLines (v : Visibility) (name : String) (declarations : List String) : List String :=
  (modifier v ++ "final class " ++ name ++ " \x7b") ::
    (declarations.map (indent ++ ·) ++ (if declarations.isEmpty then [] else [""]) ++
      [indent ++ "private " ++ name ++ "() \x7b", indent ++ "\x7d", "\x7d"])

def assemble (r : Request) (ds : List Declaration) : Except Fault String := do
  let name ← identifier r.className
  let package ← packageLines r
  let declarations ← collect (declare r.visibility) ds
  let comments := match r.documentation with
    | some s => DocComment.lines "" s
    | none => []
  let annotations := if r.markGenerated then [generatedMark] else []
  return joinLines (package ++ comments ++ annotations ++ classLines r.visibility name declarations)

def remarks (r : Request) : List String :=
  if r.topLevel then
    ["Java has no top-level fields; generating class " ++ r.className ++ " instead"]
  else []

def dialect : Dialect where
  language := .java
  extension := ".java"
  style := style
  typeName := typeName false
  identifier := identifier
  declare := declare
  assemble := assemble
  remarks := remarks

end BuildConstants.Java
