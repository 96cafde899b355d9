import BuildConstants.Value.Datum

/-!
# Tagged values

A tagged value is null, a scalar with its kind, or a sequence of tagged values. Its leaves are the
arguments that a literal consumes.
-/

namespace BuildConstants

structure Scalar where
  kind : ScalarKind
  value : Datum

namespace Scalar

def datum (s : Scalar) : Datum :=
  .scalar s.kind s.value

def display (s : Scalar) : String :=
  s.datum.display

end Scalar

inductive Tagged
  | null
  | scalar (value : Scalar)
  | tuple (items : List Tagged)

namespace Tagged

mutual

def flatten : Tagged → List Scalar
  | null => []
  | scalar s => [s]
  | tuple items => flattenItems items

def flattenItems : List Tagged → List Scalar
  | [] => []
  | v :: rest => v.flatten ++ flattenItems rest

end

@[simp] theorem flattenItems_eq (items : List Tagged) :
    flattenItems items = items.flatMap flatten := by
  induction items with
  | nil => rfl
  | cons v rest ih => simp [flattenItems, ih]

mutual

def printable : Tagged → String
  | null => "null"
  | scalar s => s.display
  | tuple items => "[" ++ Datum.commaSeparated (printableItems items) ++ "]"

def printableItems : List Tagged → List String
  | [] => []
  | v :: rest => v.printable :: printableItems rest

end

@[simp] theorem printableItems_eq (items : List Tagged) :
    printableItems items = items.map printable := by
  induction items with
  | nil => rfl
  | cons v rest ih => simp [printableItems, ih]

/-- What an error message calls the sort of a value. -/
def sort : Tagged → String
  | null => "null"
  | scalar ⟨.other, v⟩ => v.typeName
  | scalar s => s.kind.name
  | tuple _ => "tuple"

def isNull : Tagged → Bool
  | null => true
  | _ => false

end Tagged

end BuildConstants
