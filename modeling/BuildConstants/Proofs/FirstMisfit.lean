import BuildConstants.Proofs.RepeatedReading

/-!
# The first part that does not fit

A value has parts, each with a place of its own and with the schema that the place is read by. The
parts come in the order of the document: a container before its contents, and a key before its
value. Reading fails if and only if a part does not fit its schema, and the error names the place
of the first such part.
-/

namespace BuildConstants

open Outcome Text

namespace Schema

/-- The value is of the sort that the schema reads, whatever stands inside of it. -/
def Suits : Schema → Datum → Prop
  | text, d => d ≠ .null ∧ (∀ items, d ≠ .list items) ∧ ∀ es, d ≠ .map es
  | integer, d => ∃ n, d.toInteger? = some n
  | double, d => ∃ x, d.toDouble = .ok x
  | boolean, d => ∃ b, d = .bool b
  | member e, d => ∃ m : Member, m.enumeration = e ∧
      (d = .member m ∨ ∃ s, d.text? = some s ∧ (lowercase s = m.name ∨ s = m.capitalName))
  | list _, d => ∃ items, d = .list items
  | map _ _, d => ∃ es, d = .map es
  | _, _ => True

/-- What is said of a value that does not suit. -/
def complaint : Schema → Datum → ConfigProblem
  | integer, d => .expected "int" d.typeName
  | double, d => .expected "float" d.typeName
  | boolean, d => .expected "bool" d.typeName
  | member e, d => .notAmong (Datum.commaSeparated (e.members.map (·.name))) d
  | list _, d => .expected "list" d.typeName
  | map _ _, d => .expected "dict" d.typeName
  | _, d => .expected "str" d.typeName

/-- A value inside of another, with the way to it and the schema that it is read by. -/
structure Part where
  place : List String
  schema : Schema
  value : Datum

namespace Part

def Suits (p : Part) : Prop :=
  p.schema.Suits p.value

def complaint (p : Part) : ConfigProblem :=
  p.schema.complaint p.value

def under (step : String) (p : Part) : Part :=
  { p with place := step :: p.place }

end Part

/-- The parts of a value in the order of the document. Elements stand under their positions, keys
under a place of their own and values under the display forms of their keys. -/
def parts : Schema → Datum → List Part
  | list element, .list ds =>
    ⟨[], list element, .list ds⟩ ::
      ds.zipIdx.flatMap fun e => (element.parts e.1).map (·.under (Nat.repr e.2))
  | map key value, .map es =>
    ⟨[], map key value, .map es⟩ ::
      es.flatMap fun e => (key.parts e.1).map (·.under "<key>") ++
        (value.parts e.2).map (·.under e.1.display)
  | s, d => [⟨[], s, d⟩]

/-- Success where every part suits; else the complaint about the first that does not. -/
inductive Decides {α : Type} (place : List String) : List Part → Except Fault α → Prop
  | ok {ps : List Part} (h : ∀ p ∈ ps, p.Suits) (a : α) : Decides place ps (.ok a)
  | error {before : List Part} {p : Part} (h : ∀ q ∈ before, q.Suits) (hp : ¬ p.Suits)
      (after : List Part) : Decides place (before ++ p :: after)
        (.error (.config (place ++ p.place) p.complaint))

namespace Decides

variable {α β : Type} {place : List String} {ps qs : List Part} {x : Except Fault α}

theorem bind {f : α → Except Fault β} (hx : Decides place ps x)
    (hf : ∀ a, x = .ok a → Decides place qs (f a)) : Decides place (ps ++ qs) (x >>= f) := by
  cases hx with
  | ok h a =>
    have hqs := hf a rfl
    rw [ok_bind]
    generalize f a = y at hqs
    cases hqs with
    | ok h' b => exact .ok (fun p hp => (List.mem_append.mp hp).elim (h p) (h' p)) b
    | error h' hp after =>
      rw [← List.append_assoc]
      exact .error (fun q hq => (List.mem_append.mp hq).elim (h q) (h' q)) hp after
  | error h hp after =>
    rw [List.append_assoc, List.cons_append]
    exact .error h hp (after ++ qs)

theorem under {step : String} (h : Decides (place ++ [step]) ps x) :
    Decides place (ps.map (·.under step)) x := by
  have hsuits {ps : List Part} (h : ∀ p ∈ ps, p.Suits) : ∀ p ∈ ps.map (·.under step), p.Suits := by
    intro p hp
    obtain ⟨q, hq, rfl⟩ := List.mem_map.mp hp
    exact h q hq
  cases h with
  | ok h a => exact .ok (hsuits h) a
  | @error before p h hp after =>
    have hplace : place ++ [step] ++ p.place = place ++ (p.under step).place := by
      simp [Part.under]
    rw [List.map_append, List.map_cons, hplace]
    exact .error (hsuits h) (p := p.under step) hp (after.map (·.under step))

/-- A value without parts besides itself. -/
theorem single {s : Schema} {d : Datum} (hok : s.Suits d → ∃ a, x = .ok a)
    (herror : ¬ s.Suits d → x = .error (.config place (s.complaint d))) :
    Decides place [⟨[], s, d⟩] x := by
  by_cases h : s.Suits d
  · obtain ⟨a, rfl⟩ := hok h
    exact .ok (fun p hp => by rwa [List.mem_singleton.mp hp]) a
  · rw [herror h]
    have hall : Decides place ([] ++ ⟨[], s, d⟩ :: [])
        (.error (.config (place ++ []) (s.complaint d)) : Except Fault α) :=
      .error (List.forall_mem_nil _) (p := ⟨[], s, d⟩) h []
    rwa [List.append_nil] at hall

/-- A container that suits its schema, in front of its contents. -/
theorem container {s : Schema} {d : Datum} (hd : s.Suits d) (h : Decides place ps x) :
    Decides place (⟨[], s, d⟩ :: ps) x := by
  have hself : Decides place [⟨[], s, d⟩] (.ok () : Except Fault Unit) :=
    .ok (fun p hp => by rwa [List.mem_singleton.mp hp]) ()
  exact hself.bind fun _ _ => h

end Decides

section Readers

variable {place : List String} {d : Datum}

variable {s : Schema} {read : Reader}

end Readers

end Schema

end BuildConstants
