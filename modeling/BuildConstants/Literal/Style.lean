import BuildConstants.Fault
import BuildConstants.Literal.Template
import BuildConstants.ResolvedType.Basic
import BuildConstants.Value.Tagged

/-!
# Literal styles

A style says how one target language writes literals: the rule of every scalar kind, quoting, the
brackets of containers and the spelling of plain arguments.
-/

namespace BuildConstants.Literal

open Template (Brackets)

structure Style where
  rule : ScalarKind → String
  null : String
  quoteString : String → String
  quoteChar : Char → String
  primitiveArray : ScalarKind → Brackets
  genericArray : Option ResolvedType → Except Fault Brackets
  list : Brackets
  set : Brackets
  separator : String
  plain : Scalar → Except Fault String

def Style.scalar (style : Style) (k : ScalarKind) : Template :=
  .ofText (style.rule k)

end BuildConstants.Literal
