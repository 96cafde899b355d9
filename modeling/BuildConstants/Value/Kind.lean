/-!
# Scalar kinds

The kind of a scalar chooses its literal rule: suffix, cast or quotes.
-/

namespace BuildConstants

inductive ScalarKind
  | boolean
  | byte
  | short
  | char
  | int
  | long
  | float
  | double
  | string
  | other
  deriving DecidableEq

namespace ScalarKind

def all : List ScalarKind :=
  [boolean, byte, short, char, int, long, float, double, string, other]

def name : ScalarKind → String
  | boolean => "boolean"
  | byte => "byte"
  | short => "short"
  | char => "char"
  | int => "int"
  | long => "long"
  | float => "float"
  | double => "double"
  | string => "string"
  | other => "other"

def capitalName : ScalarKind → String
  | boolean => "BOOLEAN"
  | byte => "BYTE"
  | short => "SHORT"
  | char => "CHAR"
  | int => "INT"
  | long => "LONG"
  | float => "FLOAT"
  | double => "DOUBLE"
  | string => "STRING"
  | other => "OTHER"

def ofName? (s : String) : Option ScalarKind :=
  all.find? (·.name == s)

def isPrimitive : ScalarKind → Bool
  | string | other => false
  | _ => true

/-- The integral kinds and how many bits each has. -/
def width? : ScalarKind → Option Nat
  | byte => some 8
  | short => some 16
  | int => some 32
  | long => some 64
  | _ => none

def isIntegral (k : ScalarKind) : Bool :=
  k.width?.isSome

def isFloating : ScalarKind → Bool
  | float | double => true
  | _ => false

def range? (k : ScalarKind) : Option (Int × Int) :=
  k.width?.map fun w =>
    let bound : Int := Nat.pow 2 (w - 1)
    (-bound, bound - 1)

def inRange (k : ScalarKind) (n : Int) : Bool :=
  match k.range? with
  | some (lo, hi) => lo ≤ n && n ≤ hi
  | none => false

end ScalarKind

end BuildConstants
