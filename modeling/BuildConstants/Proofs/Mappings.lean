import BuildConstants.Request.Reading
import BuildConstants.Proofs.Outcome
import Mathlib.Data.List.Nodup

/-!
# Mappings with known keys

A mapping that holds given values under distinct texts gives each of them back under its name, in
whatever order its entries stand. A record whose fields are among the keys is read field by field.
-/

namespace BuildConstants

open Outcome

namespace Datum

variable {entries : List (Datum × Datum)} {fields : List (String × Datum)} {name : String}
  {d : Datum}

/-- The entries of a mapping under texts, in this order. -/
def ofFields (fields : List (String × Datum)) : List (Datum × Datum) :=
  fields.map fun f => (.text f.1, f.2)

/-- The entries of a mapping, in any order. -/
def Holds (entries : List (Datum × Datum)) (fields : List (String × Datum)) : Prop :=
  entries.Perm (ofFields fields)

theorem holds_of_reverse (h : entries = (ofFields fields).reverse) : Holds entries fields :=
  h ▸ List.reverse_perm _

theorem Holds.exists_field (h : Holds entries fields) {e : Datum × Datum} (he : e ∈ entries) :
    ∃ f ∈ fields, (.text f.1, f.2) = e :=
  List.mem_map.mp (h.mem_iff.mp he)

theorem Holds.mem (h : Holds entries fields) (hmem : (name, d) ∈ fields) :
    (.text name, d) ∈ entries :=
  h.mem_iff.mpr (List.mem_map_of_mem hmem)

theorem equals_text (s t : String) : (text s).equals (text t) = true ↔ t = s := by
  simp [equals, text?]

theorem Holds.value_eq (h : Holds entries fields) (hnodup : (fields.map (·.1)).Nodup)
    (hmem : (name, d) ∈ fields) {e : Datum × Datum} (he : e ∈ entries)
    (hkey : e.1.text? = some name) : e.2 = d := by
  obtain ⟨f, hf, rfl⟩ := h.exists_field he
  rw [List.inj_on_of_nodup_map hnodup hf hmem (Option.some.inj hkey)]

theorem Holds.field?_of_mem (h : Holds entries fields) (hnodup : (fields.map (·.1)).Nodup)
    (hmem : (name, d) ∈ fields) : field? entries name = some d := by
  obtain ⟨e, he⟩ : ∃ e, (entries.find? fun e => (text name).equals e.1) = some e := by
    refine Option.isSome_iff_exists.mp (List.find?_isSome.mpr ⟨_, h.mem hmem, ?_⟩)
    exact (equals_text name name).mpr rfl
  have hequals : (text name).equals e.1 = true := by simpa only using List.find?_some he
  have hkey : e.1.text? = some name := by simpa only [equals, beq_iff_eq] using hequals
  rw [field?, get?, lookup, he, Option.map_some,
    h.value_eq hnodup hmem (List.mem_of_find?_eq_some he) hkey]

theorem Holds.field?_eq (h : Holds entries fields) (hnodup : (fields.map (·.1)).Nodup) :
    ∀ f ∈ fields, field? entries f.1 = some f.2 :=
  fun _ hf => h.field?_of_mem hnodup hf

theorem Holds.field?_of_not_mem (h : Holds entries fields) (hname : name ∉ fields.map (·.1)) :
    field? entries name = none := by
  have hnone : (entries.find? fun e => (text name).equals e.1) = none := by
    rw [List.find?_eq_none]
    intro e he hequals
    obtain ⟨f, hf, rfl⟩ := h.exists_field he
    exact hname ((equals_text name f.1).mp hequals ▸ List.mem_map_of_mem hf)
  rw [field?, get?, lookup, hnone]
  rfl

theorem put_ofFields (h : name ∉ fields.map (·.1)) :
    put (ofFields fields) (.text name) d = ofFields (fields ++ [(name, d)]) := by
  have hnone : ((ofFields fields).any fun e => (text name).equals e.1) = false := by
    rw [List.any_eq_false]
    intro e he hequals
    obtain ⟨f, hf, rfl⟩ := List.mem_map.mp he
    exact h ((equals_text name f.1).mp hequals ▸ List.mem_map_of_mem hf)
  rw [put, hnone, ofFields, ofFields, List.map_append]
  rfl

end Datum

namespace Reader

open Datum

theorem refuseUnknown_of_holds {entries : List (Datum × Datum)} {fields : List (String × Datum)}
    {names : List String} (h : Holds entries fields) (hnames : ∀ f ∈ fields, f.1 ∈ names)
    (path : List String) : refuseUnknown path names entries = .ok () := by
  have hnone : unknownKeys names entries = [] := by
    rw [unknownKeys, List.filter_eq_nil_iff]
    intro k hk
    obtain ⟨e, he, rfl⟩ := List.mem_map.mp hk
    obtain ⟨f, hf, rfl⟩ := h.exists_field he
    simpa [text?] using hnames f hf
  rw [refuseUnknown, hnone]

theorem elements_any (path : List String) (i : Nat) (items : List Datum) :
    elements (fun _ d => .ok d) path i items = .ok items := by
  induction items generalizing i with
  | nil => rfl
  | cons d rest ih =>
    rw [elements, ok_bind, ih]
    rfl

theorem list_any (path : List String) (items : List Datum) :
    list (fun _ d => .ok d) path (.list items) = .ok (.list items) := by
  rw [list, elements_any]
  rfl

theorem entries_any (path : List String) (done fields : List (String × Datum))
    (h : ((done ++ fields).map (·.1)).Nodup) :
    entries Reader.text (fun _ d => .ok d) path (ofFields done) (ofFields fields) =
      .ok (ofFields (done ++ fields)) := by
  induction fields generalizing done with
  | nil => rw [ofFields, ofFields, List.map_nil, entries, List.append_nil, ofFields]
  | cons f rest ih =>
    have hassoc : done ++ f :: rest = (done ++ [f]) ++ rest := by simp
    have hnew : f.1 ∉ done.map (·.1) := by
      rw [List.map_append, List.map_cons, List.nodup_append] at h
      exact fun hmem => h.2.2 _ hmem _ List.mem_cons_self rfl
    rw [hassoc] at h ⊢
    rw [← ih _ h, ← put_ofFields hnew]
    rfl

end Reader

/-- A record of known keys is read field by field. -/
theorem Schema.build_of_holds {entries : List (Datum × Datum)} {fields : List (String × Datum)}
    {schemas : List (String × Schema × Option Datum)} {name label : String} {place : List String}
    {read : List (String × Datum)} (h : Datum.Holds entries fields)
    (hnames : ∀ f ∈ fields, f.1 ∈ schemas.map (·.1))
    (hread : readFields schemas place entries = .ok read) :
    (Schema.record name schemas).build label place (.map entries) = .ok (.record name read) := by
  have hrecord : (Schema.record name schemas).read place (.map entries) =
      .ok (.record name read) := by
    simp only [Schema.read, Reader.refuseUnknown_of_holds h hnames, ok_bind, hread, pure_eq_ok]
  rw [build, hrecord]

/-- A field that stands in the mapping and is read as it is, or one that is left to its default. -/
def Schema.Yields (place : List String) (entries : List (Datum × Datum))
    (s : String × Schema × Option Datum) (f : String × Datum) : Prop :=
  s.1 = f.1 ∧
    ((Datum.field? entries f.1 = some f.2 ∧ s.2.1.read (place ++ [f.1]) f.2 = .ok f.2) ∨
      (Datum.field? entries f.1 = none ∧ s.2.2 = some f.2))

theorem Schema.readFields_of_yields {place : List String} {entries : List (Datum × Datum)}
    {schemas : List (String × Schema × Option Datum)} {fields : List (String × Datum)}
    (h : List.Forall₂ (Yields place entries) schemas fields) :
    readFields schemas place entries = .ok fields := by
  induction h with
  | nil => rfl
  | @cons s f schemas fields hfirst h ih =>
    obtain ⟨name, schema, default⟩ := s
    obtain ⟨rfl, ⟨hstands, hread⟩ | ⟨hnone, hdefault⟩⟩ := hfirst
    · simp only [readFields, hstands, hread, ih, ok_bind, pure_eq_ok]
    · obtain rfl : default = some f.2 := hdefault
      simp only [readFields, hnone, ih, ok_bind, pure_eq_ok]

end BuildConstants
