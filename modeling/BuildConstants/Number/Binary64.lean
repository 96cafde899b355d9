/-!
# Double precision numbers

A finite number is a sign and a count of units of 2 ^ -1074, the smallest positive number. The
count has at most 53 significant bits, which every constructor function below keeps by rounding
to nearest with ties to even.
-/

namespace BuildConstants.Number

inductive Binary64
  | nan
  | infinite (negative : Bool)
  | finite (negative : Bool) (units : Nat)
  deriving DecidableEq

/-- The nearest natural number to a quotient; a tie goes to the even one. -/
def roundHalfEven (num den : Nat) : Nat :=
  let q := num / den
  let r := num % den
  if 2 * r < den then q else if den < 2 * r then q + 1 else q + q % 2

namespace Binary64

/-- Units in one. -/
def one : Nat := Nat.pow 2 1074

/-- Counts of units from here on are out of range. -/
def overflow : Nat := Nat.pow 2 2098

/-- Distance between neighbours at a magnitude. -/
def spacing (units : Nat) : Nat := Nat.pow 2 (units.log2 - 52)

def roundUnits (num den : Nat) : Nat :=
  let scaled := num * one
  let step := spacing (scaled / den)
  roundHalfEven scaled (den * step) * step

def ofRatio (negative : Bool) (num den : Nat) : Binary64 :=
  let units := roundUnits num den
  if overflow ≤ units then .infinite negative else .finite negative units

/-- Integers beyond the greatest finite number have no counterpart. -/
def ofInt? (n : Int) : Option Binary64 :=
  match ofRatio (n < 0) n.natAbs 1 with
  | .finite s u => some (.finite s u)
  | _ => none

def zero : Binary64 := .finite false 0

def negate : Binary64 → Binary64
  | .nan => .nan
  | .infinite s => .infinite !s
  | .finite s u => .finite (!s) u

def isFinite : Binary64 → Bool
  | .finite _ _ => true
  | _ => false

def isZero : Binary64 → Bool
  | .finite _ units => units == 0
  | _ => false

def signedUnits (negative : Bool) (units : Nat) : Int :=
  if negative then -(units : Int) else units

/-- Numeric equality: zeros are equal, and no number equals `nan`. -/
def equals : Binary64 → Binary64 → Bool
  | .infinite s, .infinite t => s == t
  | .finite s u, .finite t v => signedUnits s u == signedUnits t v
  | _, _ => false

def equalsInt (x : Binary64) (n : Int) : Bool :=
  match x with
  | .finite s u => signedUnits s u == n * one
  | _ => false

def below : Binary64 → Binary64 → Bool
  | .nan, _ => false
  | _, .nan => false
  | .infinite s, .infinite t => s && !t
  | .infinite s, .finite _ _ => s
  | .finite _ _, .infinite t => !t
  | .finite s u, .finite t v => signedUnits s u < signedUnits t v

def truncate? : Binary64 → Option Int
  | .finite s u => some (signedUnits s (u / one))
  | _ => none

end Binary64

end BuildConstants.Number
