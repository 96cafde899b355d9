import Mathlib.Data.List.Induction
import Mathlib.Data.List.Nodup
import BuildConstants.Proofs.Identifiers
import BuildConstants.Request.Reading

/-!
# Distinct constants

The distinct constants of a list are given by two things: the names in the order in which they
occur first, and for each name the last constant that has it. Both stay as they are when a part of
the list is made distinct beforehand. Identifiers keep distinct names apart.
-/

namespace BuildConstants

open Outcome

section EraseDups

variable {α : Type} [BEq α] [LawfulBEq α]

theorem eraseDups_append_singleton [DecidableEq α] (as : List α) (a : α) :
    (as ++ [a]).eraseDups = if a ∈ as then as.eraseDups else as.eraseDups ++ [a] := by
  rw [List.eraseDups_append, List.removeAll]
  by_cases ha : a ∈ as
  · simp [ha]
  · simp [ha, List.eraseDups_cons]

theorem nodup_eraseDups (as : List α) : as.eraseDups.Nodup := by
  classical
  induction as using List.reverseRecOn with
  | nil => exact List.nodup_nil
  | append_singleton as a ih =>
    rw [eraseDups_append_singleton]
    split
    · exact ih
    · rename_i ha
      rw [← List.concat_eq_append, List.nodup_concat]
      exact ⟨by rwa [List.mem_eraseDups], ih⟩

theorem eraseDups_append_eraseDups (as bs : List α) :
    (as ++ bs.eraseDups).eraseDups = (as ++ bs).eraseDups := by
  classical
  induction bs using List.reverseRecOn with
  | nil => rfl
  | append_singleton bs b ih =>
    have hmem : b ∈ as ++ bs.eraseDups ↔ b ∈ as ++ bs := by
      rw [List.mem_append, List.mem_append, List.mem_eraseDups]
    rw [eraseDups_append_singleton bs, ← List.append_assoc, eraseDups_append_singleton (as ++ bs)]
    split
    · rename_i hb
      rw [if_pos (List.mem_append_right as hb), ih]
    · rw [← List.append_assoc, eraseDups_append_singleton, ih]
      simp only [hmem]

end EraseDups

namespace Constant

/-- The last constant with a name. -/
def last? (cs : List Constant) (name : String) : Option Constant :=
  cs.reverse.find? (·.name == name)

theorem last?_append (xs ys : List Constant) (name : String) :
    last? (xs ++ ys) name = (last? ys name).or (last? xs name) := by
  rw [last?, List.reverse_append, List.find?_append]
  rfl

theorem last?_singleton (c : Constant) (name : String) :
    last? [c] name = if c.name = name then some c else none := by
  rw [last?, List.reverse_singleton, List.find?_singleton]
  simp only [beq_iff_eq]

theorem last?_eq_none_iff {cs : List Constant} {name : String} :
    last? cs name = none ↔ ∀ c ∈ cs, c.name ≠ name := by
  simp [last?]

theorem name_of_last? {cs : List Constant} {name : String} {c : Constant}
    (h : last? cs name = some c) : c ∈ cs ∧ c.name = name := by
  refine ⟨List.mem_reverse.mp (List.mem_of_find?_eq_some h), ?_⟩
  simpa using List.find?_some h

theorem last?_of_mem {cs : List Constant} (h : (cs.map (·.name)).Nodup) {c : Constant}
    (hc : c ∈ cs) : last? cs c.name = some c := by
  cases hlast : last? cs c.name with
  | none => exact absurd rfl (last?_eq_none_iff.mp hlast c hc)
  | some c' =>
    obtain ⟨hc', hname⟩ := name_of_last? hlast
    rw [List.inj_on_of_nodup_map h hc' hc hname]

/-- Where no name occurs twice, the names and the constant of each make the list. -/
theorem eq_of_names {cs ds : List Constant} (hcs : (cs.map (·.name)).Nodup)
    (hnames : cs.map (·.name) = ds.map (·.name)) (hlast : ∀ name, last? cs name = last? ds name) :
    cs = ds := by
  have hlist : ∀ es : List Constant, (es.map (·.name)).Nodup →
      es.map some = (es.map (·.name)).map (last? es) := by
    intro es hes
    rw [List.map_map]
    exact List.map_congr_left fun c hc => (last?_of_mem hes hc).symm
  apply (List.map_injective_iff.mpr fun _ _ => Option.some.inj)
  calc
    cs.map some = (cs.map (·.name)).map (last? cs) := hlist cs hcs
    _ = (ds.map (·.name)).map (last? ds) := by rw [hnames, funext hlast]
    _ = ds.map some := (hlist ds (hnames ▸ hcs)).symm

theorem mem_names_iff {cs : List Constant} {name : String} :
    name ∈ cs.map (·.name) ↔ cs.any (·.name == name) = true := by
  rw [List.mem_map, List.any_eq_true]
  simp only [beq_iff_eq]

/-- Replacing a constant by one with its name keeps every name. -/
theorem name_replaced (c k : Constant) : (if k.name == c.name then c else k).name = k.name := by
  split
  · rename_i hname
    exact (beq_iff_eq.mp hname).symm
  · rfl

theorem names_put (kept : List Constant) (c : Constant) : (put kept c).map (·.name) =
    if c.name ∈ kept.map (·.name) then kept.map (·.name) else kept.map (·.name) ++ [c.name] := by
  rw [put]
  simp only [mem_names_iff]
  split
  · rw [List.map_map]
    exact List.map_congr_left fun k _ => name_replaced c k
  · rw [List.map_append, List.map_singleton]

/-- Whatever was kept, the constant that is put in is the last one of its name. -/
theorem last?_put (kept : List Constant) (c : Constant) (name : String) :
    last? (put kept c) name = (last? [c] name).or (last? kept name) := by
  rw [put]
  split
  · rename_i hany
    have hpred : (fun k : Constant => k.name == name) ∘
        (fun k => if k.name == c.name then c else k) = fun k => k.name == name :=
      funext fun k => by rw [Function.comp, name_replaced]
    have hmap : last? (kept.map fun k => if k.name == c.name then c else k) name =
        (last? kept name).map fun k => if k.name == c.name then c else k := by
      rw [last?, ← List.map_reverse, List.find?_map, hpred, last?]
    rw [hmap, last?_singleton]
    cases hlast : last? kept name with
    | none =>
      have hne : c.name ≠ name := by
        rintro rfl
        obtain ⟨k, hk, hname⟩ := List.any_eq_true.mp hany
        exact last?_eq_none_iff.mp hlast k hk (beq_iff_eq.mp hname)
      rw [if_neg hne]
      rfl
    | some k =>
      obtain ⟨-, rfl⟩ := name_of_last? hlast
      by_cases hk : k.name = c.name
      · simp [hk]
      · simp [hk, Ne.symm hk]
  · rw [last?_append]

theorem last?_distinct (cs : List Constant) (name : String) :
    last? (distinct cs) name = last? cs name := by
  induction cs using List.reverseRecOn with
  | nil => rfl
  | append_singleton cs c ih => rw [distinct_append_singleton, last?_put, last?_append, ih]

theorem names_distinct (cs : List Constant) :
    (distinct cs).map (·.name) = (cs.map (·.name)).eraseDups := by
  induction cs using List.reverseRecOn with
  | nil => rfl
  | append_singleton cs c ih =>
    rw [distinct_append_singleton, names_put, ih, List.map_append, List.map_singleton,
      eraseDups_append_singleton]
    simp only [List.mem_eraseDups]

theorem nodup_names_distinct (cs : List Constant) : ((distinct cs).map (·.name)).Nodup := by
  rw [names_distinct]
  exact nodup_eraseDups _

theorem distinct_of_nodup {cs : List Constant} (h : (cs.map (·.name)).Nodup) :
    distinct cs = cs := by
  induction cs using List.reverseRecOn with
  | nil => rfl
  | append_singleton cs c ih =>
    rw [List.map_append, List.nodup_append] at h
    have hnew : (cs.any (·.name == c.name)) = false := by
      rw [List.any_eq_false]
      intro k hk hname
      exact h.2.2 _ (List.mem_map_of_mem hk) _ List.mem_cons_self (by simpa using hname)
    rw [distinct_append_singleton, ih h.1, put, hnew]
    rfl

theorem distinct_append (xs ys : List Constant) :
    distinct (xs ++ ys) = ys.foldl put (distinct xs) :=
  List.foldl_append

theorem distinct_distinct_append (xs ys : List Constant) :
    distinct (distinct xs ++ ys) = distinct (xs ++ ys) := by
  rw [distinct_append, distinct_append, distinct_of_nodup (nodup_names_distinct xs)]

theorem distinct_append_distinct (xs ys : List Constant) :
    distinct (xs ++ distinct ys) = distinct (xs ++ ys) := by
  apply eq_of_names (nodup_names_distinct _)
  · rw [names_distinct, names_distinct, List.map_append, List.map_append, names_distinct,
      eraseDups_append_eraseDups]
  · intro name
    rw [last?_distinct, last?_distinct, last?_append, last?_append, last?_distinct]

end Constant

theorem nodup_of_collect {α β : Type} {f : α → Except Fault β}
    (hf : ∀ a a' b, f a = .ok b → f a' = .ok b → a = a') {items : List α} {bs : List β}
    (h : collect f items = .ok bs) (hitems : items.Nodup) : bs.Nodup := by
  apply List.Nodup.of_map Except.ok
  rw [← Literal.map_of_collect h]
  apply hitems.map_on
  intro a ha a' _ hsame
  obtain ⟨b, hb⟩ := Literal.exists_of_collect h ha
  exact hf a a' b hb (hsame.symm.trans hb)

/-- The requests that are made of options and constants, or read from a mapping. -/
inductive Request.Made : Request → Prop
  | ofConstants (options : Request) (cs : List Constant) :
      Made { options with constants := Constant.distinct cs }
  | ofDatum {raw : Datum} {baseDir : Path} {outputDir : Option Path} {language : Option String}
      {r : Request} (h : ofDatum raw baseDir outputDir language = .ok r) : Made r

theorem Request.Made.exists_distinct {r : Request} (h : r.Made) :
    ∃ cs, r.constants = Constant.distinct cs := by
  cases h with
  | ofConstants _ cs => exact ⟨cs, rfl⟩
  | ofDatum h =>
    obtain ⟨form, -, h⟩ := bind_eq_ok_iff.mp h
    obtain ⟨language, -, h⟩ := bind_eq_ok_iff.mp h
    obtain ⟨cs, -, h⟩ := bind_eq_ok_iff.mp h
    obtain ⟨classes, -, h⟩ := bind_eq_ok_iff.mp h
    obtain rfl := Except.ok.inj h
    exact ⟨cs, rfl⟩

theorem Language.nodup_declared {l : Language} {r : Request} (h : r.Made) {ds : List Declaration}
    (hds : l.dialect.emitAll r.classes r.constants = .ok ds) : (ds.map (·.name)).Nodup := by
  obtain ⟨cs, hcs⟩ := h.exists_distinct
  apply nodup_of_collect (fun _ _ _ => identifier_inj) (Dialect.names_of_emitAll hds)
  rw [hcs]
  exact Constant.nodup_names_distinct cs

/-- Distinct constants have the names in the order of their first occurrence, each with the last
constant that has it, however the list comes in parts. The declarations of a request never share a
name. -/
theorem Constant.distinct_in_parts (xs ys : List Constant) :
    ((distinct xs).map (·.name)).Nodup ∧
    (distinct xs).map (·.name) = (xs.map (·.name)).eraseDups ∧
    (∀ c ∈ distinct xs, last? xs c.name = some c) ∧
    distinct (distinct xs ++ ys) = distinct (xs ++ ys) ∧
    distinct (xs ++ distinct ys) = distinct (xs ++ ys) ∧
    ∀ (l : Language) (r : Request) (ds : List Declaration), r.Made →
      l.dialect.emitAll r.classes r.constants = .ok ds → (ds.map (·.name)).Nodup := by
  refine ⟨nodup_names_distinct xs, names_distinct xs, ?_, distinct_distinct_append xs ys,
    distinct_append_distinct xs ys, fun _ _ _ hmade hds => Language.nodup_declared hmade hds⟩
  intro c hc
  rw [← last?_distinct]
  exact last?_of_mem (nodup_names_distinct xs) hc

/-- Constants of one type that are given by code. -/
def Constant.ofCode (name code : String) : Constant :=
  ⟨name, ⟨"int", false, false, []⟩, .expression code⟩

open Constant in
theorem Constant.distinct_in_parts_repeated :
    distinct [ofCode "a" "1", ofCode "fun" "2", ofCode "a" "3"] =
      [ofCode "a" "3", ofCode "fun" "2"] ∧
    distinct (distinct [ofCode "a" "1", ofCode "fun" "2"] ++ [ofCode "a" "3"]) =
      [ofCode "a" "3", ofCode "fun" "2"] ∧
    ∃ ds, Language.kotlin.dialect.emitAll .empty
        (distinct [ofCode "a" "1", ofCode "fun" "2", ofCode "a" "3"]) = .ok ds ∧
      ds.map (·.name) = ["a", "\x60fun\x60"] ∧ (ds.map (·.name)).Nodup := by
  have hlist : distinct [ofCode "a" "1", ofCode "fun" "2", ofCode "a" "3"] =
      [ofCode "a" "3", ofCode "fun" "2"] := rfl
  have hmade : (Request.ofConstants (.parse "out")
      [ofCode "a" "1", ofCode "fun" "2", ofCode "a" "3"]).Made :=
    .ofConstants (Request.ofConstants (.parse "out") [])
      [ofCode "a" "1", ofCode "fun" "2", ofCode "a" "3"]
  obtain ⟨-, -, -, hparts, -, hnodup⟩ :=
    distinct_in_parts [ofCode "a" "1", ofCode "fun" "2"] [ofCode "a" "3"]
  refine ⟨hlist, hparts.trans hlist, _, rfl, rfl, ?_⟩
  exact hnodup .kotlin _ _ hmade rfl

end BuildConstants
