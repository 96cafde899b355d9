import BuildConstants.Proofs.ProperTypes
import BuildConstants.Proofs.TrimmedCase

/-!
# What a registration changes

A registration gives an entry to its own name and to the spellings of it that have none. All other
names stand for what they stood for, so a type that mentions none of the former resolves as before
or fails as before. Built-in names are never looked up.
-/

namespace BuildConstants

open Text Outcome ResolvedType

namespace ClassRegistry

variable {r : ClassRegistry} {name : String} {entry : ClassEntry}

/-- The entry under this very name that was registered last. -/
def Latest (r : ClassRegistry) (name : String) (entry : ClassEntry) : Prop :=
  ∃ earlier later, r.entries = earlier ++ (name, entry) :: later ∧ ∀ x ∈ later, x.1 ≠ name

theorem latest?_of_latest (h : r.Latest name entry) : r.latest? (· == name) = some entry := by
  obtain ⟨earlier, later, hentries, hlater⟩ := h
  have hnone : later.reverse.find? (fun x => x.1 == name) = none :=
    List.find?_eq_none.mpr fun x hx => by simpa using hlater x (List.mem_reverse.mp hx)
  simp [latest?, hentries, List.find?_append, hnone]

theorem latest?_eq_none {passes : String → Bool} (h : ∀ x ∈ r.entries, passes x.1 = false) :
    r.latest? passes = none := by
  rw [latest?, Option.map_eq_none_iff, List.find?_eq_none]
  exact fun x hx => Bool.eq_false_iff.mp (h x (List.mem_reverse.mp hx))

theorem lookup_register_self (r : ClassRegistry) (name : String) (entry : ClassEntry) :
    (r.register name entry).lookup name = some entry := by
  rw [lookup, latest?_register, if_pos (beq_self_eq_true name)]
  rfl

theorem lookup_register_of_lowercase_ne {other : String} (h : lowercase other ≠ lowercase name) :
    (r.register name entry).lookup other = r.lookup other := by
  have hexact : ¬ (name == other) = true := by
    rw [beq_iff_eq]
    rintro rfl
    exact h rfl
  have hcase : ¬ (lowercase name == lowercase other) = true :=
    fun heq => h (beq_iff_eq.mp heq).symm
  rw [lookup, lookup, latest?_register, latest?_register, if_neg hexact, if_neg hcase]

/-- Another spelling keeps its own entry. -/
theorem lookup_register_of_latest {other : String} (hne : other ≠ name) {old : ClassEntry}
    (h : r.Latest other old) : (r.register name entry).lookup other = some old := by
  have hexact : ¬ (name == other) = true := by simpa using hne.symm
  rw [lookup, latest?_register, if_neg hexact, latest?_of_latest h]
  rfl

/-- A spelling with no entry of its own takes the new one. -/
theorem lookup_register_of_absent {other : String} (hne : other ≠ name)
    (hcase : lowercase other = lowercase name) (h : ∀ x ∈ r.entries, x.1 ≠ other) :
    (r.register name entry).lookup other = some entry := by
  have hexact : ¬ (name == other) = true := by simpa using hne.symm
  have hnone : r.latest? (· == other) = none := latest?_eq_none (by simpa using h)
  rw [lookup, latest?_register, latest?_register, if_neg hexact, hnone,
    if_pos (beq_iff_eq.mpr hcase.symm)]
  rfl

/-- Registrations one after another. -/
def registerAll (r : ClassRegistry) (history : List (String × ClassEntry)) : ClassRegistry :=
  history.foldl (fun r x => r.register x.1 x.2) r

theorem registerAll_eq (r : ClassRegistry) (history : List (String × ClassEntry)) :
    r.registerAll history = ⟨r.entries ++ history⟩ := by
  induction history generalizing r with
  | nil => rw [List.append_nil]; rfl
  | cons x history ih =>
    rw [registerAll, List.foldl_cons, ← registerAll, ih, register, List.append_assoc]
    rfl

/-- Every registry comes from registrations. -/
theorem registerAll_empty (r : ClassRegistry) : empty.registerAll r.entries = r :=
  registerAll_eq empty r.entries

end ClassRegistry

theorem Builtin.ofName?_congr {m n : String} (h : lowercase m = lowercase n) :
    Builtin.ofName? m = Builtin.ofName? n := by
  rw [ofName?, ofName?, lowercase_trim, lowercase_trim, h]

namespace TypeExpr

open ClassRegistry

/-- No name of the type that is not built in is a spelling of this one. -/
def Avoids (t : TypeExpr) (name : String) : Prop :=
  ∀ u ∈ t.components, Builtin.ofName? u.name = none → lowercase u.name ≠ lowercase name

theorem ofName_congr {r r' : ClassRegistry} {name : String}
    (h : Builtin.ofName? name = none → r.lookup name = r'.lookup name) (array nullable : Bool) :
    ofName name array nullable r = ofName name array nullable r' := by
  rw [ofName, ofName]
  split
  · rfl
  · rename_i hnone
    rw [h hnone]

theorem resolveAll_congr {r r' : ClassRegistry} {ts : List TypeExpr}
    (h : ∀ t ∈ ts, t.resolve r = t.resolve r') : resolveAll r ts = resolveAll r' ts := by
  induction ts with
  | nil => rfl
  | cons t rest ih =>
    rw [resolveAll_cons, resolveAll_cons, h t List.mem_cons_self,
      ih fun u hu => h u (List.mem_cons_of_mem t hu)]

/-- Only the names that are not built in are looked up. -/
theorem resolve_congr {r r' : ClassRegistry} (t : TypeExpr)
    (h : ∀ u ∈ t.components, Builtin.ofName? u.name = none → r.lookup u.name = r'.lookup u.name) :
    t.resolve r = t.resolve r' := by
  induction t using TypeExpr.induction with
  | step name array nullable arguments ih =>
    obtain ⟨hname, harguments⟩ := forall_components_iff.mp h
    have hbase := ofName_congr hname array nullable
    have hall a (ha : a ∈ arguments) : a.resolve r = a.resolve r' := ih a ha (harguments a ha)
    cases arguments with
    | nil => rw [resolve_nil, resolve_nil, hbase]
    | cons a rest =>
      have hrest := resolveAll_congr fun u hu => hall u (List.mem_cons_of_mem a hu)
      rw [resolve_cons, resolve_cons, hbase, hall a List.mem_cons_self, hrest]

theorem resolve_register {r : ClassRegistry} {name : String} {entry : ClassEntry} {t : TypeExpr}
    (h : t.Avoids name) : t.resolve (r.register name entry) = t.resolve r :=
  t.resolve_congr fun u hu hnone => lookup_register_of_lowercase_ne (h u hu hnone)

/-- No registration of a run counts that the type avoids. -/
theorem resolve_registerAll {t : TypeExpr} {history : List (String × ClassEntry)}
    (h : ∀ x ∈ history, t.Avoids x.1) (r : ClassRegistry) :
    t.resolve (r.registerAll history) = t.resolve r := by
  induction history generalizing r with
  | nil => rfl
  | cons x history ih =>
    obtain ⟨hx, h⟩ := List.forall_mem_cons.mp h
    exact (ih h (r.register x.1 x.2)).trans (resolve_register hx)

/-- A name that is not built in is no spelling of one that is. -/
theorem avoids_of_ofName {name : String} {b : Builtin} (hb : Builtin.ofName? name = some b)
    (t : TypeExpr) : t.Avoids name := by
  intro u hu hnone hcase
  rw [Builtin.ofName?_congr hcase, hb] at hnone
  cases hnone

/-- A registration gives its entry to its own name and to the spellings of it that have none. A
type none of whose looked-up names is such a spelling has the same outcome as before, whatever was
registered first. Nothing that is registered under a built-in name counts. -/
theorem register_frame (r : ClassRegistry) (name : String) (entry : ClassEntry) :
    (r.register name entry).lookup name = some entry ∧
    (∀ other, lowercase other ≠ lowercase name →
      (r.register name entry).lookup other = r.lookup other) ∧
    (∀ other, other ≠ name → lowercase other = lowercase name →
      (∀ old, r.Latest other old → (r.register name entry).lookup other = some old) ∧
      ((∀ x ∈ r.entries, x.1 ≠ other) → (r.register name entry).lookup other = some entry)) ∧
    (∀ t : TypeExpr, t.Avoids name → t.resolve (r.register name entry) = t.resolve r) ∧
    (∀ t : TypeExpr, (∀ u ∈ t.components, ∃ b, u.Names b) →
      ∀ r' : ClassRegistry, t.resolve r' = t.resolve r) ∧
    ∀ b, Builtin.ofName? name = some b →
      ∀ t : TypeExpr, t.resolve (r.register name entry) = t.resolve r := by
  refine ⟨lookup_register_self r name entry, fun other => lookup_register_of_lowercase_ne,
    fun other hne hcase => ⟨fun old => lookup_register_of_latest hne,
      lookup_register_of_absent hne hcase⟩, fun t => resolve_register, fun t ht r' => ?_,
    fun b hb t => resolve_register (avoids_of_ofName hb t)⟩
  refine t.resolve_congr fun u hu hnone => ?_
  obtain ⟨b, hb⟩ := ht u hu
  exact absurd (hb.symm.trans hnone) (Option.some_ne_none b)

/-- Of two boxes that differ in case the older one keeps its entry, a third spelling takes the new
one, and a list of crates stays what it was. -/
theorem register_frame_boxes :
    let boxes : ClassRegistry := ⟨[("box", ⟨"old.Box", false⟩), ("crate", ⟨"old.Crate", false⟩)]⟩
    let crates : TypeExpr := ⟨"List", false, false, [⟨"crate", false, true, []⟩]⟩
    let numbers : TypeExpr := ⟨"List", false, false, [⟨"int", false, true, []⟩]⟩
    let after := boxes.register "Box" ⟨"new.Box", true⟩
    after.lookup "Box" = some ⟨"new.Box", true⟩ ∧ after.lookup "crate" = boxes.lookup "crate" ∧
      after.lookup "box" = some ⟨"old.Box", false⟩ ∧ after.lookup "BOX" = some ⟨"new.Box", true⟩ ∧
      crates.resolve after = crates.resolve boxes ∧
      numbers.resolve ClassRegistry.empty = numbers.resolve boxes ∧
      crates.resolve (boxes.register "LIST" ⟨"new.List", true⟩) = crates.resolve boxes := by
  intro boxes crates numbers after
  obtain ⟨hself, hother, hcase, hframe, hbuiltin, -⟩ :=
    register_frame boxes "Box" ⟨"new.Box", true⟩
  refine ⟨hself, hother "crate" (by decide), ?_, ?_, hframe crates ?_, ?_, ?_⟩
  · exact (hcase "box" (by decide) (by decide)).1 _ ⟨[], _, rfl, by decide⟩
  · exact (hcase "BOX" (by decide) (by decide)).2 (by decide)
  · refine forall_components_iff.mpr ⟨by decide, List.forall_mem_singleton.mpr ?_⟩
    exact forall_components_iff.mpr ⟨by decide, nofun⟩
  · refine hbuiltin numbers (forall_components_iff.mpr ⟨⟨.list, by decide⟩, ?_⟩) _
    refine List.forall_mem_singleton.mpr (forall_components_iff.mpr ⟨⟨.int, by decide⟩, nofun⟩)
  · exact (register_frame boxes "LIST" ⟨"new.List", true⟩).2.2.2.2.2 .list (by decide) crates

end TypeExpr

end BuildConstants
