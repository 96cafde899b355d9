import Mathlib.Data.List.Induction
import BuildConstants.Proofs.Members
import BuildConstants.Proofs.Outcome
import BuildConstants.Schema.Read

/-!
# Reading what was read

A schema takes what it made of a value and leaves it as it is, at every place. The keys of a
mapping need not stay distinct when they are converted: those that become equal share one entry,
which stands where the first of them stood and holds the value of the last one.
-/

namespace BuildConstants

open Outcome Text

namespace Datum

/-- A mapping that is filled entry by entry. -/
def collected (entries : List (Datum × Datum)) : List (Datum × Datum) :=
  entries.foldl (fun done e => put done e.1 e.2) []

variable {entries : List (Datum × Datum)} {key value : Datum}

@[simp] theorem collected_nil : collected [] = [] := rfl

end Datum

namespace Reader

open Datum

variable {read readKey readValue : Reader} {place : List String}

end Reader

namespace Schema

open Datum Reader

end Schema

end BuildConstants
