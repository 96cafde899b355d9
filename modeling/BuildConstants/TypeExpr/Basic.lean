/-!
# Declared types

A declared type is a name with type arguments, a mark for values that may be absent and a mark for
arrays. The shorthand writes it as `List<Set<String>>?[]`.
-/

namespace BuildConstants

structure TypeExpr where
  name : String
  array : Bool
  nullable : Bool
  arguments : List TypeExpr

namespace TypeExpr

mutual

def text : TypeExpr → String
  | ⟨name, array, nullable, arguments⟩ =>
    name
      ++ (if arguments.isEmpty then "" else "<" ++ String.intercalate ", " (texts arguments) ++ ">")
      ++ (if nullable then "?" else "") ++ (if array then "[]" else "")

def texts : List TypeExpr → List String
  | [] => []
  | t :: rest => t.text :: texts rest

end

@[simp] theorem texts_eq (ts : List TypeExpr) : texts ts = ts.map text := by
  induction ts with
  | nil => rfl
  | cons t rest ih => simp [texts, ih]

/-- The declared type of the elements of a container. -/
def element? (t : TypeExpr) : Option TypeExpr :=
  if t.array then some ⟨t.name, false, t.nullable, t.arguments⟩ else t.arguments.head?

end TypeExpr

end BuildConstants
