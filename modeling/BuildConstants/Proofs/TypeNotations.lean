import BuildConstants.Proofs.Mappings
import BuildConstants.Proofs.ShorthandPrinting

/-!
# Notations of declared types

A declared type is written in shorthand or as a mapping, and each type argument of a mapping is
again written in either way. A mapping may leave out flags that are false and an empty list of
arguments. Every mixture of the notations is read as the type that it notates.
-/

namespace BuildConstants

open Datum Outcome

namespace TypeExpr

def fields (name : String) (array nullable : Bool) (arguments : List Datum) :
    List (String × Datum) := [
  ("name", .text name),
  ("array", .bool array),
  ("nullable", .bool nullable),
  ("args", .list arguments)]

/-- The two notations of a declared type. The type arguments of a mapping have notations of their
own. -/
inductive Written : TypeExpr → Datum → Prop
  | shorthand (t : TypeExpr) : Written t (.text t.text)
  | mapping {name : String} {array nullable : Bool} {arguments : List (TypeExpr × Datum)}
      {entries : List (Datum × Datum)} (h : ∀ a ∈ arguments, Written a.1 a.2)
      (hentries : Holds entries (fields name array nullable (arguments.map (·.2)))) :
      Written ⟨name, array, nullable, arguments.map (·.1)⟩ (.map entries)

/-- What a mapping need not say. -/
def implied : List (String × Datum) := [
  ("array", .bool false),
  ("nullable", .bool false),
  ("args", .list [])]

/-- Some of the fields, among them all that are not implied. -/
structure States (stated all : List (String × Datum)) : Prop where
  sublist : stated.Sublist all
  implied : ∀ f ∈ all, f ∉ stated → f ∈ implied

/-- A type in any mixture of the notations. The shorthand may have blanks between its tokens, and
a mapping may leave out what is implied. -/
inductive Notated : TypeExpr → Datum → Prop
  | shorthand {t : TypeExpr} {s : String} {ts : List Token} (hspells : Spells ts s.toList)
      (h : Derives ts t) : Notated t (.text s)
  | mapping {name : String} {array nullable : Bool} {arguments : List (TypeExpr × Datum)}
      {stated : List (String × Datum)} {entries : List (Datum × Datum)}
      (h : ∀ a ∈ arguments, Notated a.1 a.2)
      (hstated : States stated (fields name array nullable (arguments.map (·.2))))
      (hentries : Holds entries stated) :
      Notated ⟨name, array, nullable, arguments.map (·.1)⟩ (.map entries)

theorem States.refl (all : List (String × Datum)) : States all all :=
  ⟨List.Sublist.refl all, fun _ hf hnot => absurd hf hnot⟩

theorem Writable.arguments {t : TypeExpr} (h : t.Writable) : ∀ a ∈ t.arguments, a.Writable := by
  cases h with
  | intro hname h => exact h

theorem Notated.of_parse {t : TypeExpr} {s : String} (h : parse s = .ok t) :
    Notated t (.text s) := by
  obtain ⟨ts, hspells, hd⟩ := parse_eq_ok_iff.mp h
  exact .shorthand hspells hd

theorem notated_text {t : TypeExpr} (h : t.Writable) : Notated t (.text t.text) := by
  obtain ⟨ts, hd⟩ := h.exists_derives
  exact .of_parse (parse_text_of_derives hd)

theorem Written.notated {t : TypeExpr} {d : Datum} (h : Written t d) (ht : t.Writable) :
    Notated t d := by
  induction h with
  | shorthand t => exact notated_text ht
  | @mapping name array nullable arguments entries h hentries ih =>
    refine .mapping (fun a ha => ?_) (.refl _) hentries
    exact ih a ha (ht.arguments a.1 (List.mem_map_of_mem ha))

/-! ### Fields that are stated or implied -/

section Stated

variable {stated all : List (String × Datum)} {entries : List (Datum × Datum)}

theorem States.nodup (h : States stated all) (hall : (all.map (·.1)).Nodup) :
    (stated.map (·.1)).Nodup :=
  hall.sublist (h.sublist.map _)

theorem States.not_mem_keys (h : States stated all) (hall : (all.map (·.1)).Nodup)
    {f : String × Datum} (hf : f ∈ all) (hnot : f ∉ stated) : f.1 ∉ stated.map (·.1) := by
  intro hkey
  obtain ⟨g, hg, hname⟩ := List.mem_map.mp hkey
  obtain rfl := List.inj_on_of_nodup_map hall (h.sublist.subset hg) hf hname
  exact hnot hg

theorem States.field? (h : States stated all) (hall : (all.map (·.1)).Nodup)
    (hentries : Holds entries stated) : ∀ f ∈ all,
      Datum.field? entries f.1 = some f.2 ∨
        (Datum.field? entries f.1 = none ∧ f ∈ TypeExpr.implied) := by
  intro f hf
  by_cases hmem : f ∈ stated
  · exact .inl (hentries.field?_of_mem (h.nodup hall) hmem)
  · exact .inr ⟨hentries.field?_of_not_mem (h.not_mem_keys hall hf hmem), h.implied f hf hmem⟩

end Stated

theorem nodup_fields (name : String) (array nullable : Bool) (arguments : List Datum) :
    ((fields name array nullable arguments).map (·.1)).Nodup := by
  simp [fields]

/-- A mapping is read as the record of all fields, those that it leaves out at their defaults. -/
theorem build_of_states {name : String} {array nullable : Bool} {arguments : List Datum}
    {stated : List (String × Datum)} {entries : List (Datum × Datum)}
    (h : States stated (fields name array nullable arguments)) (hentries : Holds entries stated)
    (place : List String) : Schema.typeExpr.build "TypeCfg" place (.map entries) =
      .ok (.record "TypeCfg" (fields name array nullable arguments)) := by
  have hfields := h.field? (nodup_fields name array nullable arguments) hentries
  simp only [fields, implied, List.forall_mem_cons] at hfields
  obtain ⟨hname, harray, hnullable, hargs, -⟩ := hfields
  refine Schema.build_of_holds hentries (fun f hf => ?_) (Schema.readFields_of_yields ?_)
  · have hall : ∀ f ∈ fields name array nullable arguments,
        f.1 ∈ ["name", "array", "nullable", "args"] := by
      simp [fields]
    exact hall f (h.sublist.subset hf)
  · refine .cons ⟨rfl, ?_⟩ (.cons ⟨rfl, ?_⟩ (.cons ⟨rfl, ?_⟩ (.cons ⟨rfl, ?_⟩ .nil)))
    · simpa [Schema.required, Schema.read, Reader.text] using hname
    · simpa [Schema.defaulted, Schema.read, Reader.boolean] using harray
    · simpa [Schema.defaulted, Schema.read, Reader.boolean] using hnullable
    · simpa [Schema.defaulted, Schema.read, Reader.list_any] using hargs

/-! ### Arguments -/

section Arguments

variable {place : List String}

theorem readAll_of_forall {arguments : List (TypeExpr × Datum)}
    (h : ∀ a ∈ arguments, ∀ place, read place a.2 = .ok a.1) (i : Nat) :
    readAll place i (arguments.map (·.2)) = .ok (arguments.map (·.1)) := by
  induction arguments generalizing i with
  | nil => rfl
  | cons a rest ih =>
    rw [List.map_cons, readAll, h a List.mem_cons_self, ok_bind,
      ih fun b hb => h b (List.mem_cons_of_mem a hb)]
    rfl

theorem readArgumentEntry_cons_of_ne {e : Datum × Datum} (h : e.1.text? ≠ some "args")
    (rest : List (Datum × Datum)) :
    readArgumentEntry place (e :: rest) = readArgumentEntry place rest := by
  obtain ⟨k, v⟩ := e
  cases v with
  | list items => rw [readArgumentEntry, if_neg (by simpa using h)]
  | _ =>
    rw [readArgumentEntry]
    intro k items h
    cases h

theorem readArgumentEntry_of_absent {entries : List (Datum × Datum)}
    (h : ∀ e ∈ entries, e.1.text? ≠ some "args") : readArgumentEntry place entries = .ok [] := by
  induction entries with
  | nil => rfl
  | cons e rest ih =>
    obtain ⟨hfirst, hrest⟩ := List.forall_mem_cons.mp h
    rw [readArgumentEntry_cons_of_ne hfirst, ih hrest]

theorem readArgumentEntry_of_unique {entries : List (Datum × Datum)}
    (items : List Datum) (hall : ∀ e ∈ entries, e.1.text? = some "args" → e.2 = .list items)
    (hmem : ∃ e ∈ entries, e.1.text? = some "args") :
    readArgumentEntry place entries = readAll place 0 items := by
  induction entries with
  | nil =>
    obtain ⟨e, he, -⟩ := hmem
    cases he
  | cons e rest ih =>
    obtain ⟨hfirst, hrest⟩ := List.forall_mem_cons.mp hall
    by_cases hk : e.1.text? = some "args"
    · obtain ⟨k, v⟩ := e
      obtain rfl : v = .list items := hfirst hk
      rw [readArgumentEntry, if_pos (by simpa using hk)]
    · obtain ⟨e', he', hargs⟩ := hmem
      have he' : e' ∈ rest := (List.mem_cons.mp he').resolve_left (by rintro rfl; exact hk hargs)
      rw [readArgumentEntry_cons_of_ne hk, ih hrest ⟨e', he', hargs⟩]

/-- Arguments that are left out are none. -/
theorem readArgumentEntry_of_states {name : String} {array nullable : Bool} {items : List Datum}
    {stated : List (String × Datum)} {entries : List (Datum × Datum)}
    (h : States stated (fields name array nullable items)) (hentries : Holds entries stated) :
    readArgumentEntry place entries = readAll place 0 items := by
  have hnodup := nodup_fields name array nullable items
  have hargs : ("args", .list items) ∈ fields name array nullable items := by simp [fields]
  by_cases hmem : ("args", .list items) ∈ stated
  · refine readArgumentEntry_of_unique items (fun e he hkey => ?_) ?_
    · exact hentries.value_eq (h.nodup hnodup) hmem he hkey
    · exact ⟨_, hentries.mem hmem, rfl⟩
  · have himplied := h.implied _ hargs hmem
    obtain rfl : items = [] := by simpa [implied] using himplied
    rw [readArgumentEntry_of_absent, readAll]
    intro e he hkey
    obtain ⟨f, hf, rfl⟩ := hentries.exists_field he
    have hname : f.1 = "args" := Option.some.inj hkey
    exact h.not_mem_keys hnodup hargs hmem (List.mem_map.mpr ⟨f, hf, hname⟩)

end Arguments

theorem read_of_notated {t : TypeExpr} {d : Datum} (h : Notated t d) (place : List String) :
    read place d = .ok t := by
  induction h generalizing place with
  | shorthand hspells hd => rw [read, parseAt, parse_eq_ok_iff.mpr ⟨_, hspells, hd⟩]
  | @mapping name array nullable arguments stated entries h hstated hentries ih =>
    have harguments : readArgumentEntry (place ++ ["args"]) entries =
        .ok (arguments.map (·.1)) := by
      rw [readArgumentEntry_of_states hstated hentries]
      exact readAll_of_forall ih 0
    rw [read, build_of_states hstated hentries, ok_bind, harguments, ok_bind]
    rfl

theorem read_of_written {t : TypeExpr} {d : Datum} (h : Written t d) (ht : t.Writable)
    (place : List String) : read place d = .ok t :=
  read_of_notated (h.notated ht) place

/-- The two notations agree in any mixture. A type with writable names has a shorthand, which is a
notation of it; a mapping of notations is one again. Whatever notates a type is read as that type
at every place. -/
theorem read_mixed_notations :
    (∀ t : TypeExpr, t.Writable → Notated t (.text t.text)) ∧
    ∀ (t : TypeExpr) (d : Datum), Notated t d → ∀ place, read place d = .ok t := by
  constructor
  · intro t ht
    exact notated_text ht
  · intro t d h place
    exact read_of_notated h place

/-- A printed type, and a mapping in other order, without `array`, one argument in shorthand and one
as a mapping that is almost all implied. -/
theorem read_mixed_notations_nested :
    (Writable ⟨"Set", true, true, [⟨"$s", false, false, []⟩]⟩ ∧
      Notated ⟨"Set", true, true, [⟨"$s", false, false, []⟩]⟩ (.text "Set<$s>?[]")) ∧
    Notated ⟨"Map", false, true,
        [⟨"List", false, false, [⟨"Int", true, true, []⟩]⟩, ⟨"$s", false, false, []⟩]⟩
      (.map [
        (.text "args", .list [.text "List< Int?[] >", .map [(.text "name", .text "$s")]]),
        (.text "nullable", .bool true),
        (.text "name", .text "Map")]) ∧
    read ["fields", "0", "type"]
        (.map [
          (.text "args", .list [.text "List< Int?[] >", .map [(.text "name", .text "$s")]]),
          (.text "nullable", .bool true),
          (.text "name", .text "Map")]) =
      .ok ⟨"Map", false, true,
        [⟨"List", false, false, [⟨"Int", true, true, []⟩]⟩, ⟨"$s", false, false, []⟩]⟩ := by
  have hset : Writable ⟨"Set", true, true, [⟨"$s", false, false, []⟩]⟩ := by
    have hargument : Writable ⟨"$s", false, false, []⟩ := .intro (by decide) (by simp)
    exact .intro (by decide) (by simpa using hargument)
  have htext : text ⟨"Set", true, true, [⟨"$s", false, false, []⟩]⟩ = "Set<$s>?[]" := by cbv
  have hprinted := read_mixed_notations.1 _ hset
  rw [htext] at hprinted
  have hlist : Notated ⟨"List", false, false, [⟨"Int", true, true, []⟩]⟩
      (.text "List< Int?[] >") := .of_parse (by cbv)
  have hbare : Notated ⟨"$s", false, false, []⟩ (.map [(.text "name", .text "$s")]) := by
    have hstated : States [("name", .text "$s")] (fields "$s" false false []) :=
      ⟨by simp [fields], by simp [fields, implied]⟩
    show Notated ⟨"$s", false, false, ([] : List (TypeExpr × Datum)).map (·.1)⟩ _
    exact .mapping (by simp) hstated (.refl _)
  have hmap : Notated ⟨"Map", false, true,
        [⟨"List", false, false, [⟨"Int", true, true, []⟩]⟩, ⟨"$s", false, false, []⟩]⟩
      (.map [
        (.text "args", .list [.text "List< Int?[] >", .map [(.text "name", .text "$s")]]),
        (.text "nullable", .bool true),
        (.text "name", .text "Map")]) := by
    have hstated : States [
          ("name", .text "Map"),
          ("nullable", .bool true),
          ("args", .list [.text "List< Int?[] >", .map [(.text "name", .text "$s")]])]
        (fields "Map" false true [.text "List< Int?[] >", .map [(.text "name", .text "$s")]]) :=
      ⟨by simp [fields], by simp [fields, implied]⟩
    show Notated ⟨"Map", false, true,
      [(TypeExpr.mk "List" false false [⟨"Int", true, true, []⟩], Datum.text "List< Int?[] >"),
        (⟨"$s", false, false, []⟩, .map [(.text "name", .text "$s")])].map (·.1)⟩ _
    exact .mapping (by simpa using ⟨hlist, hbare⟩) hstated (holds_of_reverse rfl)
  exact ⟨⟨hset, hprinted⟩, hmap, read_mixed_notations.2 _ _ hmap _⟩

end TypeExpr

end BuildConstants
