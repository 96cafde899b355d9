/-!
# Tables of code points

A table lists closed intervals of code points. The tables of this library follow Unicode 14.0;
below 128 every predicate is written out, so that a table is read for other characters only.
-/

namespace BuildConstants.Text

def covers (table : List (Nat × Nat)) (c : Char) : Bool :=
  table.any fun r => r.1 ≤ c.toNat && c.toNat ≤ r.2

theorem covers_eq_true_iff {table : List (Nat × Nat)} {c : Char} :
    covers table c = true ↔ ∃ r ∈ table, r.1 ≤ c.toNat ∧ c.toNat ≤ r.2 := by
  simp [covers]

end BuildConstants.Text
