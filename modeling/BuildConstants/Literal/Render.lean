import BuildConstants.Literal.Plain
import BuildConstants.Literal.Style

/-!
# Filling templates

Arguments fill the holes of a template in order. There must be as many arguments as holes; an
argument that cannot be spelled is reported before a missing or unused one behind it.
-/

namespace BuildConstants.Literal

def spell (style : Style) (h : Hole) (s : Scalar) : Except Fault String :=
  match h with
  | .plain => style.plain s
  | .string => .ok (style.quoteString s.value.display)
  | .char => do
    let c ← charOf s.value
    return style.quoteChar c

/-- `consumed` counts the arguments used so far. -/
def fill (style : Style) (template : String) (consumed : Nat) :
    List Piece → List Scalar → Except Fault (List Char)
  | [], [] => .ok []
  | [], rest => .error (.unusedArguments template consumed (consumed + rest.length))
  | .letter c :: ps, args => do
    let cs ← fill style template consumed ps args
    return c :: cs
  | .hole _ :: _, [] => .error (.missingArgument template consumed)
  | .hole h :: ps, s :: args => do
    let text ← spell style h s
    let cs ← fill style template (consumed + 1) ps args
    return text.toList ++ cs

def render (style : Style) (template : String) (args : List Scalar) : Except Fault String := do
  let cs ← fill style template 0 (pieces template.toList) args
  return String.ofList cs

end BuildConstants.Literal
