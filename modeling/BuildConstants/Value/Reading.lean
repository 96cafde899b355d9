import BuildConstants.Fault
import BuildConstants.Value.Tagged

/-!
# Scalars from texts

A text with an explicit kind becomes a scalar of that kind. Ranges are not checked here.
-/

namespace BuildConstants

open Number Text

namespace Scalar

/-- A text as a value of a kind. The error shows the text as it was read: without separators for
integers, in full for floating numbers. -/
def read (kind : ScalarKind) (s : String) : Except NumberError Scalar :=
  if kind.isIntegral then
    match readTaggedInteger? s with
    | some n => .ok ⟨kind, .int n⟩
    | none => .error (.notInteger 0 (String.ofList (withoutSeparators s)))
  else if kind.isFloating then
    match readDouble? s.toList with
    | some x => .ok ⟨kind, .float x⟩
    | none => .error (.notDouble (quoted s))
  else .ok ⟨kind, .text s⟩

def taggedKinds : List ScalarKind :=
  [.byte, .short, .int, .long, .float, .double, .char, .string]

/-- A text under the tag of a kind. Lines are counted from one in what is said of them. -/
def construct (kind : ScalarKind) (line : Nat) (s : String) : Except DocumentProblem Scalar :=
  match read kind s with
  | .ok v => .ok v
  | .error _ => .error (.kindTag (line + 1) kind s)

end Scalar

end BuildConstants
