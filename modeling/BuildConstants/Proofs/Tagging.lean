import BuildConstants.Proofs.Outcome
import BuildConstants.Value.Tagging

/-!
# What tagging makes of a value

Tagging keeps the shape of a value: a sequence becomes the tuple of its tagged elements, those of
a set rearranged, and all else becomes null or one scalar. Where no scalar of the value has a kind
of its own, only integers become long.
-/

namespace BuildConstants

open Outcome

namespace Datum

/-- The elements of a sequence or set. -/
def elements? : Datum → Option (List Datum)
  | list items | tuple items | set items | frozenSet items => some items
  | _ => none

/-- No scalar with a kind of its own stands at the place of a value that is tagged. -/
inductive Untagged : Datum → Prop
  | sequence {d : Datum} {items : List Datum} (hd : d.elements? = some items)
      (h : ∀ e ∈ items, Untagged e) : Untagged d
  | single {d : Datum} (hd : d.elements? = none) (h : ∀ k v, d ≠ .scalar k v) : Untagged d

end Datum

namespace Scalar

/-- Only an integer becomes a long. -/
def LongHoldsInt (s : Scalar) : Prop :=
  s.kind = .long → ∃ n, s.value = .int n

theorem ofInt_longHoldsInt {hint : Option ScalarKind} {n : Int} {s : Scalar}
    (h : ofInt hint n = .ok s) : s.LongHoldsInt := by
  intro hlong
  unfold ofInt at h
  split at h
  · obtain rfl := Except.ok.inj h
    cases hlong
  · split at h
    · obtain rfl := Except.ok.inj h
      exact ⟨n, rfl⟩
    · rename_i k _ _
      split at h
      · rename_i hfloating
        split at h
        · obtain rfl := Except.ok.inj h
          obtain rfl : k = .long := hlong
          cases hfloating
        · cases h
      · obtain rfl := Except.ok.inj h
        exact ⟨n, rfl⟩
  · obtain rfl := Except.ok.inj h
    exact ⟨n, rfl⟩

theorem ofFloat_kind_ne_long (hint : Option ScalarKind) (x : Number.Binary64) :
    (ofFloat hint x).kind ≠ .long := by
  unfold ofFloat
  split <;> exact ScalarKind.noConfusion

theorem ofText_kind_ne_long (hint : Option ScalarKind) (d : Datum) :
    (ofText hint d).kind ≠ .long := by
  unfold ofText
  split <;> exact ScalarKind.noConfusion

end Scalar

namespace Tagged

variable {declared : Option TypeExpr}

theorem sequenceAll_eq_ok {rs : List (Except Fault Tagged)} {vs : List Tagged}
    (h : sequenceAll rs = .ok vs) : rs = vs.map .ok := by
  induction rs generalizing vs with
  | nil =>
    obtain rfl := Except.ok.inj h
    rfl
  | cons r rest ih =>
    rw [sequenceAll] at h
    obtain ⟨v, hv, h⟩ := bind_eq_ok_iff.mp h
    obtain ⟨others, hothers, h⟩ := bind_eq_ok_iff.mp h
    obtain rfl := Except.ok.inj h
    rw [hv, ih hothers, List.map_cons]

theorem ofItems_eq_sequenceAll (declared : Option TypeExpr) (items : List Datum) :
    ofItems declared items = sequenceAll (items.map (ofDatum declared)) := by
  induction items with
  | nil => rfl
  | cons d rest ih => rw [ofItems, ih, List.map_cons, sequenceAll]

theorem outcomes_eq_map (declared : Option TypeExpr) (items : List Datum) :
    outcomes declared items = items.map fun d => (d, ofDatum declared d) := by
  induction items with
  | nil => rfl
  | cons d rest ih => rw [outcomes, ih, List.map_cons]

/-- The values are what tagging makes of the elements, in some order. -/
def Arise (declared : Option TypeExpr) (items : List Datum) (vs : List Tagged) : Prop :=
  ∃ es : List Datum, es.Perm items ∧ es.map (ofDatum declared) = vs.map .ok

theorem Arise.exists_element {items : List Datum} {vs : List Tagged}
    (h : Arise declared items vs) {v : Tagged} (hv : v ∈ vs) :
    ∃ e ∈ items, ofDatum declared e = .ok v := by
  obtain ⟨es, hperm, hmap⟩ := h
  have hmem : (.ok v : Except Fault Tagged) ∈ es.map (ofDatum declared) := by
    rw [hmap]
    exact List.mem_map_of_mem hv
  obtain ⟨e, he, hev⟩ := List.mem_map.mp hmem
  exact ⟨e, hperm.mem_iff.mp he, hev⟩

theorem Arise.exists_value {items : List Datum} {vs : List Tagged}
    (h : Arise declared items vs) {e : Datum} (he : e ∈ items) :
    ∃ v ∈ vs, ofDatum declared e = .ok v := by
  obtain ⟨es, hperm, hmap⟩ := h
  have hmem : ofDatum declared e ∈ vs.map .ok := by
    rw [← hmap]
    exact List.mem_map_of_mem (hperm.mem_iff.mpr he)
  obtain ⟨v, hv, hev⟩ := List.mem_map.mp hmem
  exact ⟨v, hv, hev.symm⟩

theorem arise_of_ofItems {items : List Datum} {vs : List Tagged}
    (h : ofItems declared items = .ok vs) : Arise declared items vs := by
  rw [ofItems_eq_sequenceAll] at h
  exact ⟨items, .refl _, sequenceAll_eq_ok h⟩

theorem arise_of_sorted {items : List Datum} {vs : List Tagged}
    {le : Datum × Except Fault Tagged → Datum × Except Fault Tagged → Bool}
    (h : sequenceAll (((outcomes declared items).mergeSort le).map (·.2)) = .ok vs) :
    Arise declared items vs := by
  have hperm : ((outcomes declared items).mergeSort le).Perm (outcomes declared items) :=
    List.mergeSort_perm _ _
  refine ⟨((outcomes declared items).mergeSort le).map (·.1), ?_, ?_⟩
  · have hfirst := hperm.map Prod.fst
    simpa [outcomes_eq_map, Function.comp_def] using hfirst
  · rw [← sequenceAll_eq_ok h, List.map_map]
    refine List.map_congr_left fun p hp => ?_
    -- Every pair holds an element and what tagging makes of it.
    have hp := hperm.mem_iff.mp hp
    rw [outcomes_eq_map, List.mem_map] at hp
    obtain ⟨d, -, rfl⟩ := hp
    rfl

/-- A sequence is tagged element by element, in some order. -/
theorem ofDatum_sequence {d : Datum} {items : List Datum} (hd : d.elements? = some items)
    {v : Tagged} (h : ofDatum declared d = .ok v) :
    ∃ vs, v = .tuple vs ∧ Arise (declared.bind (·.element?)) items vs := by
  cases d with
  | list others | tuple others =>
    obtain rfl := Option.some.inj hd
    obtain ⟨vs, hvs, h⟩ := bind_eq_ok_iff.mp h
    exact ⟨vs, (Except.ok.inj h).symm, arise_of_ofItems hvs⟩
  | set others | frozenSet others =>
    obtain rfl := Option.some.inj hd
    obtain ⟨vs, hvs, h⟩ := bind_eq_ok_iff.mp h
    exact ⟨vs, (Except.ok.inj h).symm, arise_of_sorted hvs⟩
  | null | bool b | int n | float x | text s | bytes octets | date y m d | member m | path s
  | map entries | scalar k v | record name fields | object sort form shown => cases hd

theorem longHoldsInt_of_untagged {d : Datum} (hd : d.Untagged) :
    ∀ {declared v}, ofDatum declared d = .ok v → ∀ s ∈ v.flatten, s.LongHoldsInt := by
  induction hd with
  | @sequence d items hd h ih =>
    intro declared v hv s hs
    obtain ⟨vs, rfl, harise⟩ := ofDatum_sequence hd hv
    rw [flatten, flattenItems_eq] at hs
    obtain ⟨w, hw, hs⟩ := List.mem_flatMap.mp hs
    obtain ⟨e, he, hew⟩ := harise.exists_element hw
    exact ih e he hew s hs
  | @single d hd h =>
    intro declared v hv s hs
    -- A value that is no sequence gives null or one scalar, and long only from an integer.
    cases d with
    | list items | tuple items | set items | frozenSet items => cases hd
    | scalar k x => exact absurd rfl (h k x)
    | null =>
      obtain rfl := Except.ok.inj hv
      cases hs
    | int n =>
      obtain ⟨s', hs', hv⟩ := bind_eq_ok_iff.mp hv
      obtain rfl := Except.ok.inj hv
      obtain rfl := List.mem_singleton.mp hs
      exact Scalar.ofInt_longHoldsInt hs'
    | float x =>
      obtain rfl := Except.ok.inj hv
      obtain rfl := List.mem_singleton.mp hs
      exact fun hlong => absurd hlong (Scalar.ofFloat_kind_ne_long _ x)
    | text t =>
      obtain rfl := Except.ok.inj hv
      obtain rfl := List.mem_singleton.mp hs
      exact fun hlong => absurd hlong (Scalar.ofText_kind_ne_long _ _)
    | member m =>
      obtain rfl := Except.ok.inj hv
      obtain rfl := List.mem_singleton.mp hs
      exact fun hlong => absurd hlong (Scalar.ofText_kind_ne_long _ _)
    | bool b | bytes octets | date y m d | path p | map entries | record name fields
    | object sort form shown =>
      obtain rfl := Except.ok.inj hv
      obtain rfl := List.mem_singleton.mp hs
      intro hlong
      cases hlong

end Tagged

end BuildConstants
