import BuildConstants.Literal.Render
import BuildConstants.Literal.Format
import BuildConstants.Request.Basic
import BuildConstants.ResolvedType.Resolve

/-!
# Dialects

A dialect is all that depends on the target language: literals, type names, identifiers and the
layout of a source file. A declaration is a constant made ready for the layout.
-/

namespace BuildConstants

structure Declaration where
  name : String
  type : ResolvedType
  initializer : String
  constant : Bool

structure Dialect where
  language : Language
  extension : String
  style : Literal.Style
  typeName : ResolvedType → Except Fault String
  identifier : String → Except Fault String
  declare : Visibility → Declaration → Except Fault String
  assemble : Request → List Declaration → Except Fault String
  /-- Remarks on options of the request that this language does not have. -/
  remarks : Request → List String

namespace Initial

/-- What an error message shows of a value, and what it calls its sort. -/
def shown : Initial → String × String
  | literal v => (v.printable, v.sort)
  | expression code => (code, "Expression")

def isNull : Initial → Bool
  | literal v => v.isNull
  | expression _ => false

def isLiteral : Initial → Bool
  | literal _ => true
  | expression _ => false

end Initial

namespace Dialect

/-- The text of a literal; the template must take exactly the leaves of the value. -/
def initializer (d : Dialect) (name : String) (t : ResolvedType) :
    Initial → Except Fault String
  | .expression code => .ok code
  | .literal v => do
    let template ← Literal.format d.style t v
    let args := v.flatten
    if template.count != args.length then
      let typeName ← d.typeName t
      .error (.countMismatch name typeName template.count args.length)
    else Literal.render d.style template.text args

/-- A null makes its declaration nullable; only literals of constant types are constants. -/
def declaration (d : Dialect) (c : Constant) (classes : ClassRegistry) :
    Except Fault Declaration := do
  let name ← d.identifier c.name
  let resolved ← c.type.resolve classes
  let type := if c.initial.isNull then resolved.withNullable true else resolved
  let text ← d.initializer c.name type c.initial
  return ⟨name, type, text, c.initial.isLiteral && !c.initial.isNull && resolved.isConstant⟩

/-- The declaration of a constant; every fault comes with the constant that it befell. -/
def emit (d : Dialect) (c : Constant) (classes : ClassRegistry) : Except Fault Declaration :=
  match d.declaration c classes with
  | .ok declaration => .ok declaration
  | .error cause =>
    .error (.constant c.name c.type.text c.initial.shown.1 c.initial.shown.2 cause)

def emitAll (d : Dialect) (classes : ClassRegistry) : List Constant → Except Fault (List Declaration)
  | [] => .ok []
  | c :: rest => do
    let declaration ← d.emit c classes
    let others ← d.emitAll classes rest
    return declaration :: others

def source (d : Dialect) (r : Request) : Except Fault String := do
  let declarations ← d.emitAll r.classes r.constants
  d.assemble r declarations

def outputPath (d : Dialect) (r : Request) : Path :=
  (r.packageParts.foldl Path.child r.outputDir).child (r.className ++ d.extension)

end Dialect

/-- All results in order, or the first error. -/
def collect (f : α → Except Fault β) : List α → Except Fault (List β)
  | [] => .ok []
  | a :: rest => do
    let b ← f a
    let others ← collect f rest
    return b :: others

def joinLines (ls : List String) : String :=
  String.intercalate "\n" ls ++ "\n"

end BuildConstants
