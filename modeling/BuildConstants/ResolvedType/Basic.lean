import BuildConstants.Value.Kind

/-!
# Resolved types

A resolved type no longer mentions names that have to be looked up, save the qualified name of a
class. Primitive arrays have a form of their own.
-/

namespace BuildConstants

inductive ResolvedType
  | primitive (kind : ScalarKind) (nullable : Bool)
  | string (nullable : Bool)
  | primitiveArray (kind : ScalarKind) (nullable : Bool)
  | array (element : Option ResolvedType) (nullable : Bool)
  | list (element : Option ResolvedType) (nullable : Bool)
  | set (element : Option ResolvedType) (nullable : Bool)
  | named (qualified : String) (arguments : List ResolvedType) (container nullable : Bool)

namespace ResolvedType

def nullable : ResolvedType → Bool
  | primitive _ n | string n | primitiveArray _ n | array _ n | list _ n | set _ n
  | named _ _ _ n => n

def withNullable (n : Bool) : ResolvedType → ResolvedType
  | primitive k _ => primitive k n
  | string _ => string n
  | primitiveArray k _ => primitiveArray k n
  | array e _ => array e n
  | list e _ => list e n
  | set e _ => set e n
  | named q as c _ => named q as c n

@[simp] theorem nullable_withNullable (n : Bool) (t : ResolvedType) :
    (t.withNullable n).nullable = n := by
  cases t <;> rfl

@[simp] theorem withNullable_withNullable (n m : Bool) (t : ResolvedType) :
    (t.withNullable m).withNullable n = t.withNullable n := by
  cases t <;> rfl

theorem withNullable_nullable (t : ResolvedType) : t.withNullable t.nullable = t := by
  cases t <;> rfl

/-- Lists, sets and classes marked so take type arguments. -/
def isContainer : ResolvedType → Bool
  | list .. | set .. => true
  | named _ _ c _ => c
  | _ => false

def isConstant : ResolvedType → Bool
  | string n => !n
  | primitive k n => k.isPrimitive && !n
  | _ => false

def element? : ResolvedType → Option ResolvedType
  | array e _ | list e _ | set e _ => e
  | _ => none

def isSequence : ResolvedType → Bool
  | primitiveArray .. | array .. | list .. | set .. => true
  | _ => false

end ResolvedType

end BuildConstants
