import BuildConstants.Number.Binary64

/-!
# Fewest digits that read back

The numbers nearest to a double form an interval around it. For each count of digits the search
tries the two neighbours of the double on that decimal grid; the first grid with a hit wins, of
two hits the nearer, of two equally near the one with an even digit.

All comparisons are between natural numbers. Bounds are counted in quarters of a unit.
-/

namespace BuildConstants.Number

/-- `digits · 10 ^ exponent`. -/
structure Decimal where
  digits : Nat
  exponent : Int
  deriving DecidableEq

namespace Shortest

/-- Quarters of a unit at the lower end of the interval; below a power of two neighbours are
half as far. -/
def low (units : Nat) : Nat :=
  if 52 < units.log2 && units == Nat.pow 2 units.log2 then 4 * units - Binary64.spacing units
  else 4 * units - 2 * Binary64.spacing units

def high (units : Nat) : Nat :=
  4 * units + 2 * Binary64.spacing units

/-- An even number owns both ends of its interval. -/
def isEven (units : Nat) : Bool :=
  units / Binary64.spacing units % 2 == 0

/-- Factor of a grid point against `quarterFactor`. -/
def gridFactor (place : Int) : Nat :=
  4 * Binary64.one * Nat.pow 10 place.toNat

def quarterFactor (place : Int) : Nat :=
  Nat.pow 10 (-place).toNat

def inside (units : Nat) (place : Int) (c : Nat) : Bool :=
  let point := c * gridFactor place
  let l := low units * quarterFactor place
  let h := high units * quarterFactor place
  if isEven units then l ≤ point && point ≤ h else l < point && point < h

/-- A grid point of the place that reads back as the number. -/
def atPlace? (units : Nat) (place : Int) : Option Nat :=
  let centre := 4 * units * quarterFactor place
  let grid := gridFactor place
  let c := centre / grid
  let below := centre - c * grid
  let above := (c + 1) * grid - centre
  match inside units place c, inside units place (c + 1) with
  | true, true =>
    if below < above || (below == above && c % 2 == 0) then some c else some (c + 1)
  | true, false => some c
  | false, true => some (c + 1)
  | false, false => none

def magnitude (units : Nat) : Int :=
  ((Nat.repr (units * Nat.pow 10 350 / Binary64.one)).length : Int) - 351

def search (units : Nat) : Option Decimal :=
  (List.range 17).findSome? fun (i : Nat) =>
    let place := magnitude units - i
    (atPlace? units place).map fun c => ⟨c, place⟩

end Shortest

def shortest (units : Nat) : Decimal :=
  (Shortest.search units).getD ⟨0, 0⟩

end BuildConstants.Number
