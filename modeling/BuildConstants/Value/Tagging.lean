import BuildConstants.Builtin
import BuildConstants.Fault
import BuildConstants.TypeExpr.Basic
import BuildConstants.Value.Tagged

/-!
# Tagging values by declared types

Untagged numbers and texts take their kind from the declared type, or from the declared element
type inside a container; a scalar that carries a kind keeps it. Sets come in the order of sort and
written form of their elements, whatever order they are enumerated in.
-/

namespace BuildConstants

open Number Text

namespace TypeExpr

def scalarKind? (t : TypeExpr) : Option ScalarKind :=
  if t.array then none else (Builtin.ofName? t.name).bind (·.scalarKind?)

end TypeExpr

namespace Scalar

def ofInt (hint : Option ScalarKind) (n : Int) : Except Fault Scalar :=
  match hint with
  | some .string => .ok ⟨.string, .text (Int.repr n)⟩
  | some k =>
    if k.isIntegral then .ok ⟨k, .int n⟩
    else if k.isFloating then match Binary64.ofInt? n with
      | some x => .ok ⟨k, .float x⟩
      | none => .error (.number .tooLarge)
    else .ok (untaggedInt n)
  | none => .ok (untaggedInt n)
where
  /-- Integers that do not fit into 32 bits are long. -/
  untaggedInt (n : Int) : Scalar :=
    ⟨if ScalarKind.int.inRange n then .int else .long, .int n⟩

def ofFloat (hint : Option ScalarKind) (x : Binary64) : Scalar :=
  match hint with
  | some .float => ⟨.float, .float x⟩
  | some .string => ⟨.string, .text x.text⟩
  | _ => ⟨.double, .float x⟩

/-- The kind of a text is char only where a char is declared. -/
def ofText (hint : Option ScalarKind) (d : Datum) : Scalar :=
  match hint with
  | some .char => ⟨.char, d⟩
  | _ => ⟨.string, d⟩

end Scalar

def setOrder (a b : Datum) : Bool :=
  a.typeName < b.typeName || (a.typeName == b.typeName && !(b.written < a.written))

namespace Tagged

/-- All results, or the first error. -/
def sequenceAll : List (Except Fault Tagged) → Except Fault (List Tagged)
  | [] => .ok []
  | r :: rest => do
    let t ← r
    let ts ← sequenceAll rest
    return t :: ts

mutual

/-- Tags a value. Elements of a set are tagged where they stand and ordered afterwards; the first
error is the one that comes first in that order. -/
def ofDatum (declared : Option TypeExpr) : Datum → Except Fault Tagged
  | .null => .ok .null
  | .scalar k v => .ok (.scalar ⟨k, v⟩)
  | .list items | .tuple items => do
    let tagged ← ofItems (declared.bind (·.element?)) items
    return .tuple tagged
  | .set items | .frozenSet items => do
    let tagged ← sequenceAll ((outcomes (declared.bind (·.element?)) items).mergeSort
      (fun a b => setOrder a.1 b.1) |>.map (·.2))
    return .tuple tagged
  | .bool b => .ok (.scalar ⟨.boolean, .bool b⟩)
  | .int n => do
    let s ← Scalar.ofInt (declared.bind (·.scalarKind?)) n
    return .scalar s
  | .float x => .ok (.scalar (Scalar.ofFloat (declared.bind (·.scalarKind?)) x))
  | .text s => .ok (.scalar (Scalar.ofText (declared.bind (·.scalarKind?)) (.text s)))
  | .member m => .ok (.scalar (Scalar.ofText (declared.bind (·.scalarKind?)) (.member m)))
  | .bytes octets => .ok (.scalar ⟨.other, .bytes octets⟩)
  | .date y m d => .ok (.scalar ⟨.other, .date y m d⟩)
  | .path p => .ok (.scalar ⟨.other, .path p⟩)
  | .map entries => .ok (.scalar ⟨.other, .map entries⟩)
  | .record name fields => .ok (.scalar ⟨.other, .record name fields⟩)
  | .object sort form shown => .ok (.scalar ⟨.other, .object sort form shown⟩)

def ofItems (declared : Option TypeExpr) : List Datum → Except Fault (List Tagged)
  | [] => .ok []
  | d :: rest => do
    let t ← ofDatum declared d
    let ts ← ofItems declared rest
    return t :: ts

def outcomes (declared : Option TypeExpr) : List Datum → List (Datum × Except Fault Tagged)
  | [] => []
  | d :: rest => (d, ofDatum declared d) :: outcomes declared rest

end

end Tagged

end BuildConstants
