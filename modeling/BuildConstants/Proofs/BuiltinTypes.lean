import BuildConstants.Proofs.Conformance

/-!
# Types over built-in names

A declared type whose names are all built in has type arguments that fit or does not resolve. Where
it resolves, the declared type of its elements resolves to that of the elements of the result, and
what is declared as a container is one.
-/

namespace BuildConstants

open Outcome ResolvedType

theorem ResolvedType.isSequence_arrayOf (r : ResolvedType) : r.arrayOf.isSequence = true := by
  match r with
  | .primitive _ true | .primitive _ false => rfl
  | .string _ | .primitiveArray .. | .array .. | .list .. | .set .. | .named .. => rfl

namespace TypeExpr

/-- All names in the type are built-in ones. Type arguments may stand where none are taken. -/
inductive OverBuiltins : TypeExpr → Prop
  | intro {t : TypeExpr} {b : Builtin} (hb : t.Names b) (h : ∀ a ∈ t.arguments, OverBuiltins a) :
      OverBuiltins t

def IsContainer (t : TypeExpr) : Prop :=
  t.array = true ∨ t.Names .list ∨ t.Names .set

theorem Standard.overBuiltins {t : TypeExpr} (h : t.Standard) : t.OverBuiltins := by
  induction h with
  | scalar hb _ ha => exact .intro hb (by simp [ha])
  | collection hb _ ha _ ih => exact .intro hb (by simpa [ha] using ih)

section Resolution

variable {classes : ClassRegistry} {t : TypeExpr}

theorem OverBuiltins.unmarked (h : t.OverBuiltins) : t.unmarked.OverBuiltins := by
  cases h with
  | intro hb h => exact .intro hb h

/-- Of the built-in types only lists and sets take an argument, and they take just one. -/
theorem collection_of_resolve {b : Builtin} (hb : t.Names b) {a : TypeExpr} {rest : List TypeExpr}
    (ha : t.arguments = a :: rest) {full : ResolvedType} (hfull : t.resolve classes = .ok full) :
    rest = [] ∧ (b = .list ∨ b = .set) ∧ ∃ r, a.resolve classes = .ok r := by
  obtain ⟨name, array, nullable, arguments⟩ := t
  obtain rfl : arguments = a :: rest := ha
  rw [resolve_cons, ofName_of_names hb, ok_bind] at hfull
  obtain ⟨r, hr, hfull⟩ := bind_eq_ok_iff.mp hfull
  obtain ⟨rs, hrs, hfull⟩ := bind_eq_ok_iff.mp hfull
  obtain ⟨base, hbase, -⟩ := bind_eq_ok_iff.mp hfull
  have hrest (h : rs = []) : rest = [] := by
    cases rest with
    | nil => rfl
    | cons a' rest =>
      rw [h, resolveAll_cons] at hrs
      obtain ⟨r', -, hrs⟩ := bind_eq_ok_iff.mp hrs
      obtain ⟨rs', -, hrs⟩ := bind_eq_ok_iff.mp hrs
      cases hrs
  cases b with
  | list =>
    cases rs with
    | nil => exact ⟨hrest rfl, .inl rfl, r, hr⟩
    | cons r' rs => cases hbase
  | set =>
    cases rs with
    | nil => exact ⟨hrest rfl, .inr rfl, r, hr⟩
    | cons r' rs => cases hbase
  | string => cases hbase
  | boolean | byte | short | char | int | long | float | double =>
    cases array <;> cases nullable <;> cases hbase

theorem OverBuiltins.resolves (h : t.OverBuiltins) {full : ResolvedType}
    (hfull : t.resolve classes = .ok full) : ∃ r, t.Resolves classes r := by
  induction h generalizing full with
  | @intro t b hb h ih =>
    cases ha : t.arguments with
    | nil => exact ⟨_, resolves_of_no_arguments classes hb ha⟩
    | cons a rest =>
      obtain ⟨rfl, hc, r, hr⟩ := collection_of_resolve hb ha hfull
      obtain ⟨e, he⟩ := ih a (by simp [ha]) hr
      exact he.collection hb hc ha

theorem OverBuiltins.eq_arrayOf (h : t.OverBuiltins) (harray : t.array = true)
    {full : ResolvedType} (hfull : t.resolve classes = .ok full) :
    ∃ r, t.unmarked.resolve classes = .ok r ∧ full = r.arrayOf := by
  obtain ⟨r, hr⟩ := h.resolves hfull
  have hmarked := hr.marked
  rw [if_pos harray, hfull] at hmarked
  exact ⟨r, hr.unmarked, Except.ok.inj hmarked⟩

theorem shape_of_resolve {b : Builtin} (hb : t.Names b) {a : TypeExpr} {rest : List TypeExpr}
    (ha : t.arguments = a :: rest) (harray : t.array = false) {full : ResolvedType}
    (hfull : t.resolve classes = .ok full) : rest = [] ∧ ∃ r, a.resolve classes = .ok r ∧
      (full = .list (some r) t.nullable ∨ full = .set (some r) t.nullable) := by
  obtain ⟨rfl, hc, r, hr⟩ := collection_of_resolve hb ha hfull
  obtain ⟨c, hshape, -, hmarked⟩ := resolve_collection hb hc ha hr
  rw [if_neg (by simp [harray]), hfull] at hmarked
  obtain rfl := Except.ok.inj hmarked
  exact ⟨rfl, r, hr, hshape⟩

/-- The declared type of the elements resolves to that of the elements of the resolved type. -/
theorem OverBuiltins.exists_part (h : t.OverBuiltins) {e : TypeExpr} (he : t.element? = some e)
    {full : ResolvedType} (hfull : t.resolve classes = .ok full) :
    e.OverBuiltins ∧ ∃ r, e.resolve classes = .ok r ∧ full.part? = some r := by
  cases harray : t.array with
  | true =>
    obtain rfl : t.unmarked = e := Option.some.inj ((element?_of_array harray).symm.trans he)
    obtain ⟨r, hr, rfl⟩ := h.eq_arrayOf harray hfull
    exact ⟨h.unmarked, r, hr, part?_arrayOf r⟩
  | false =>
    cases h with
    | @intro t b hb h =>
      cases ha : t.arguments with
      | nil => simp [element?, harray, ha] at he
      | cons a rest =>
        obtain ⟨rfl, r, hr, hshape⟩ := shape_of_resolve hb ha harray hfull
        obtain rfl : a = e := Option.some.inj ((element?_of_argument harray ha).symm.trans he)
        refine ⟨h a (by simp [ha]), r, hr, ?_⟩
        rcases hshape with rfl | rfl <;> rfl

theorem OverBuiltins.isSequence (h : t.OverBuiltins) (ht : t.IsContainer) {full : ResolvedType}
    (hfull : t.resolve classes = .ok full) : full.isSequence = true := by
  cases harray : t.array with
  | true =>
    obtain ⟨r, -, rfl⟩ := h.eq_arrayOf harray hfull
    exact isSequence_arrayOf r
  | false =>
    obtain ⟨b, hb, hc⟩ : ∃ b, t.Names b ∧ (b = .list ∨ b = .set) := by
      obtain hmark | hlist | hset := ht
      · exact Bool.noConfusion (harray.symm.trans hmark)
      · exact ⟨_, hlist, .inl rfl⟩
      · exact ⟨_, hset, .inr rfl⟩
    cases ha : t.arguments with
    | nil =>
      rw [resolve_of_no_arguments classes hb ha, harray] at hfull
      obtain rfl := Except.ok.inj hfull
      rcases hc with rfl | rfl <;> cases t.nullable <;> rfl
    | cons a rest =>
      obtain ⟨rfl, r, -, hshape⟩ := shape_of_resolve hb ha harray hfull
      rcases hshape with rfl | rfl <;> rfl

theorem IsContainer.scalarKind_eq_none (ht : t.IsContainer) : t.scalarKind? = none := by
  cases harray : t.array with
  | true => simp [scalarKind?, harray]
  | false =>
    obtain hmark | hlist | hset := ht
    · exact Bool.noConfusion (harray.symm.trans hmark)
    · exact scalarKind?_of_names harray hlist
    · exact scalarKind?_of_names harray hset

end Resolution

end TypeExpr

end BuildConstants
