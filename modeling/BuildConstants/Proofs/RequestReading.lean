import BuildConstants.Proofs.DistinctConstants
import BuildConstants.Proofs.Loading
import BuildConstants.Proofs.Members
import BuildConstants.Proofs.PathNames
import BuildConstants.Proofs.Shape
import BuildConstants.Proofs.TypeNotations

/-!
# Requests written as mappings

Every request has a mapping that says all of it, with the keys in any order and each declared type
in either of its notations. Reading such a mapping gives the request back.
-/

namespace BuildConstants

open Datum Outcome

namespace Tagged

mutual

/-- A literal as a mapping holds it: sequences are lists, and scalars keep their kinds. -/
def datum : Tagged → Datum
  | null => .null
  | scalar s => s.datum
  | tuple items => .list (itemData items)

def itemData : List Tagged → List Datum
  | [] => []
  | v :: rest => v.datum :: itemData rest

end

/-- Tagging leaves alone what is tagged already. -/
theorem ofDatum_datum (v : Tagged) : ∀ declared, ofDatum declared v.datum = .ok v := by
  induction v using Tagged.induction with
  | null => exact fun _ => rfl
  | scalar s => exact fun _ => rfl
  | tuple items ih =>
    have hitems : ∀ declared, ofItems declared (itemData items) = .ok items := by
      intro declared
      induction items with
      | nil => rfl
      | cons v rest ihrest =>
        rw [itemData, ofItems, ih v List.mem_cons_self, ok_bind,
          ihrest fun w hw => ih w (List.mem_cons_of_mem v hw)]
        rfl
    intro declared
    rw [datum, ofDatum, hitems]
    rfl

end Tagged

namespace Initial

/-- The key of a value or an expression, and what stands under it. -/
def field : Initial → String × Datum
  | literal v => ("value", v.datum)
  | expression code => ("expression", .text code)

end Initial

namespace Constant

def fields (c : Constant) (type : Datum) : List (String × Datum) := [
  ("name", .text c.name),
  ("type", type),
  c.initial.field]

/-- A constant as a mapping: its name, its type in either notation, and its value or expression. -/
inductive Written (c : Constant) : Datum → Prop
  | mapping {type : Datum} {entries : List (Datum × Datum)} (htype : c.type.Written type)
      (hentries : Holds entries (c.fields type)) : Written c (.map entries)

/-- What reading makes of such a mapping; what does not stand there is null. -/
def form (c : Constant) (type : Datum) : Datum :=
  .record "FieldCfg" [
    ("name", .text c.name),
    ("type", type),
    ("value", match c.initial with
      | .literal v => v.datum
      | .expression _ => .null),
    ("expression", match c.initial with
      | .literal _ => .null
      | .expression code => .text code)]

theorem build_of_holds {c : Constant} {type : Datum} {entries : List (Datum × Datum)}
    (h : Holds entries (c.fields type)) (place : List String) :
    Schema.constant.build "FieldCfg" place (.map entries) = .ok (c.form type) := by
  obtain ⟨name, t, initial⟩ := c
  have hfields := h.field?_eq (by cases initial <;> simp [fields, Initial.field])
  simp only [fields, List.forall_mem_cons] at hfields
  obtain ⟨hname, htype, hinitial, -⟩ := hfields
  refine Schema.build_of_holds h ?_ ?_
  · cases initial <;> simp [fields, Initial.field, Schema.required, Schema.defaulted]
  · cases initial with
    | literal v =>
      have hexpression : field? entries "expression" = none :=
        h.field?_of_not_mem (by simp [fields, Initial.field])
      simp only [Initial.field] at hinitial
      simp [hname, htype, hinitial, hexpression, Schema.readFields, Schema.required,
        Schema.defaulted, Schema.read, Reader.text]
    | expression code =>
      have hvalue : field? entries "value" = none :=
        h.field?_of_not_mem (by simp [fields, Initial.field])
      simp only [Initial.field] at hinitial
      simp [hname, htype, hinitial, hvalue, Schema.readFields, Schema.required,
        Schema.defaulted, Schema.read, Reader.text]

theorem read_of_written {c : Constant} {d : Datum} (h : c.Written d) (hc : c.type.Writable)
    (place : List String) : read place d = .ok c := by
  obtain @⟨type, entries, htype, hentries⟩ := h
  have hread := TypeExpr.read_of_written htype hc (place ++ ["type"])
  rw [read, build_of_holds hentries]
  obtain ⟨name, t, initial⟩ := c
  cases initial with
  | literal v =>
    simp [form, recordField, textField, optionalTextField, text?, hread, ofDatum,
      Tagged.ofDatum_datum]
  | expression code =>
    simp [form, recordField, textField, optionalTextField, text?, hread]

theorem readAll_of_written {cs : List Constant} {ds : List Datum} (h : List.Forall₂ Written cs ds)
    (hcs : ∀ c ∈ cs, c.type.Writable) (i : Nat) : readAll i ds = .ok cs := by
  induction h generalizing i with
  | nil => rfl
  | @cons c d cs ds hc h ih =>
    rw [readAll, read_of_written hc (hcs c List.mem_cons_self), ok_bind,
      ih fun b hb => hcs b (List.mem_cons_of_mem c hb)]
    rfl

end Constant

namespace ClassRegistry

def fields (entry : ClassEntry) : List (String × Datum) := [
  ("name", .text entry.qualified),
  ("container", .bool entry.container)]

/-- A registered class as a mapping under its name. -/
inductive Written : String × ClassEntry → String × Datum → Prop
  | mapping {name : String} {entry : ClassEntry} {entries : List (Datum × Datum)}
      (hentries : Holds entries (fields entry)) : Written (name, entry) (name, .map entries)

theorem readEntry_of_holds {entry : ClassEntry} {entries : List (Datum × Datum)}
    (h : Holds entries (fields entry)) (place : List String) :
    readEntry place (.map entries) = .ok entry := by
  have hfields := h.field?_eq (by simp [fields])
  simp only [fields, List.forall_mem_cons] at hfields
  obtain ⟨hname, hcontainer, -⟩ := hfields
  have hbuild : Schema.classEntry.build "ClassEntryCfg" place (.map entries) =
      .ok (.record "ClassEntryCfg" (fields entry)) := by
    refine Schema.build_of_holds h (by simp [fields, Schema.required, Schema.defaulted]) ?_
    simp [fields, Schema.readFields, Schema.required, Schema.defaulted, Schema.read, Reader.text,
      Reader.boolean, hname, hcontainer]
  rw [readEntry, hbuild]
  · simp [fields, recordField, textField, flagField, text?]
  · intro s h
    cases h
  · intro m h
    cases h

theorem names_of_written {es : List (String × ClassEntry)} {ds : List (String × Datum)}
    (h : List.Forall₂ Written es ds) : ds.map (·.1) = es.map (·.1) := by
  induction h with
  | nil => rfl
  | cons he h ih =>
    cases he with
    | mapping hentries => rw [List.map_cons, List.map_cons, ih]

theorem read_of_written {es : List (String × ClassEntry)} {ds : List (String × Datum)}
    (h : List.Forall₂ Written es ds) (r : ClassRegistry) :
    r.read (ofFields ds) = .ok ⟨r.entries ++ es⟩ := by
  induction h generalizing r with
  | nil => simp [ofFields, read]
  | cons he h ih =>
    cases he with
    | @mapping name entry entries hentries =>
      rw [ofFields, List.map_cons, read, readEntry_of_holds hentries, ok_bind]
      have hrest := ih (r.register name entry)
      rw [register, List.append_assoc, List.singleton_append] at hrest
      exact hrest

end ClassRegistry

namespace Request

/-- Every option under its key. -/
def fields (r : Request) (constants : List Datum) (classes : List (String × Datum)) :
    List (String × Datum) := [
  ("fields", .list constants),
  ("package", .text r.packageName),
  ("class_name", .text r.className),
  ("language", .text r.language.name),
  ("top_level", .bool r.topLevel),
  ("visibility", .text r.visibility.name),
  ("documentation", r.documentation.elim .null .text),
  ("generated_annotation", .bool r.markGenerated),
  ("output_dir", .text r.outputDir.text),
  ("types", .map (ofFields classes))]

/-- A request as a mapping that says all of it. -/
inductive Written (r : Request) : Datum → Prop
  | mapping {constants : List Datum} {classes : List (String × Datum)}
      {entries : List (Datum × Datum)}
      (hconstants : List.Forall₂ Constant.Written r.constants constants)
      (hclasses : List.Forall₂ ClassRegistry.Written r.classes.entries classes)
      (hentries : Holds entries (r.fields constants classes)) : Written r (.map entries)

/-- What reading makes of such a mapping: members for names, all else as it is. -/
def form (r : Request) (constants : List Datum) (classes : List (String × Datum)) : Datum :=
  .record "RequestCfg" [
    ("fields", .list constants),
    ("package", .text r.packageName),
    ("class_name", .text r.className),
    ("language", .member (.language r.language)),
    ("top_level", .bool r.topLevel),
    ("visibility", .member (.visibility r.visibility)),
    ("documentation", r.documentation.elim .null .text),
    ("generated_annotation", .bool r.markGenerated),
    ("output_dir", .text r.outputDir.text),
    ("types", .map (ofFields classes))]

theorem languageField_form (r : Request) (constants : List Datum)
    (classes : List (String × Datum)) : languageField (r.form constants classes) = r.language := by
  have hfield : (r.form constants classes).recordField "language" =
      .member (.language r.language) := rfl
  rw [languageField, hfield]
  cases r.language <;> decide

theorem visibilityField_form (r : Request) (constants : List Datum)
    (classes : List (String × Datum)) :
    visibilityField (r.form constants classes) = r.visibility := by
  have hfield : (r.form constants classes).recordField "visibility" =
      .member (.visibility r.visibility) := rfl
  rw [visibilityField, hfield]
  cases r.visibility <;> decide

theorem build_of_holds {r : Request} {constants : List Datum} {classes : List (String × Datum)}
    {entries : List (Datum × Datum)} (h : Holds entries (r.fields constants classes))
    (hclasses : (classes.map (·.1)).Nodup) :
    Schema.request.build "RequestCfg" [] (.map entries) = .ok (r.form constants classes) := by
  have hfields := h.field?_eq (by simp [fields])
  simp only [fields, List.forall_mem_cons] at hfields
  obtain ⟨hconstants, hpackage, hclass, hlanguage, htop, hvisibility, hdoc, hmark, hdir, htypes, -⟩ :=
    hfields
  refine Schema.build_of_holds h (by simp [fields, Schema.defaulted]) ?_
  have hlanguageRead : Reader.memberOfText? .language r.language.name =
      some (.language r.language) :=
    Reader.memberOfText?_eq_some_iff.mpr ⟨rfl, .inl (by cases r.language <;> decide)⟩
  have hvisibilityRead : Reader.memberOfText? .visibility r.visibility.name =
      some (.visibility r.visibility) :=
    Reader.memberOfText?_eq_some_iff.mpr ⟨rfl, .inl (by cases r.visibility <;> decide)⟩
  have hclassesRead (place : List String) : Reader.entries Reader.text (fun _ d => .ok d) place []
      (ofFields classes) = .ok (ofFields classes) := by
    have hread := Reader.entries_any place [] classes (by rwa [List.nil_append])
    exact hread
  simp only [Schema.readFields, Schema.defaulted, Schema.read, Reader.text, Reader.boolean,
    Reader.list_any, Reader.member, Reader.map, hconstants, hpackage, hclass, hlanguage, htop,
    hvisibility, hdoc, hmark, hdir, htypes, hlanguageRead, hvisibilityRead, hclassesRead, ok_bind]
  cases r.documentation <;> rfl

/-- The mapping with all keys in order and all types in shorthand. -/
def mapping (r : Request) : Datum :=
  .map (ofFields (r.fields
    (r.constants.map fun c => .map (ofFields (c.fields (.text c.type.text))))
    (r.classes.entries.map fun e => (e.1, .map (ofFields (ClassRegistry.fields e.2))))))

theorem written_mapping (r : Request) : r.Written r.mapping := by
  refine .mapping ?_ ?_ (.refl _)
  · rw [List.forall₂_map_right_iff, List.forall₂_same]
    exact fun c _ => .mapping (.shorthand c.type) (.refl _)
  · rw [List.forall₂_map_right_iff, List.forall₂_same]
    exact fun e _ => .mapping (.refl _)

/-- Every request has a mapping, and reading one gives the request. -/
theorem ofDatum_of_written {r : Request} (hnames : (r.constants.map (·.name)).Nodup)
    (hclasses : r.classes.names.Nodup) (htypes : ∀ c ∈ r.constants, c.type.Writable)
    (hdir : r.outputDir.Normal) :
    r.Written r.mapping ∧ ∀ d, r.Written d → ofDatum d (.parse ".") none none = .ok r := by
  refine ⟨r.written_mapping, fun d hd => ?_⟩
  obtain @⟨constants, classes, entries, hconstants, hclassesWritten, hentries⟩ := hd
  have hform := build_of_holds hentries (by
    rw [ClassRegistry.names_of_written hclassesWritten]
    exact hclasses)
  have hpath : (Path.parse ".").child r.outputDir.text = r.outputDir := by
    rw [Path.child, Path.parse_text hdir, Path.join]
    split
    · rename_i hroot
      exact congrArg (Path.mk · r.outputDir.parts) hroot.symm
    · rfl
  have hread : ofForm (r.form constants classes) r.outputDir r.language r.constants r.classes =
      r := by
    have hdoc : (r.form constants classes).optionalTextField "documentation" = r.documentation := by
      rw [form]
      cases r.documentation <;> rfl
    rw [ofForm, Constant.distinct_of_nodup hnames, hdoc, visibilityField_form]
    rfl
  have hlanguage : chooseLanguage (r.form constants classes) none = .ok r.language := by
    rw [chooseLanguage, languageField_form]
  rw [← hpath] at hread
  exact ofDatum_eq_ok_iff.mpr ⟨_, r.language, r.constants, r.classes, hform, hlanguage,
    Constant.readAll_of_written hconstants htypes 0,
    ClassRegistry.read_of_written hclassesWritten .empty, hread⟩

/-- A request with a nested literal, an empty expression and a registered class. -/
def portRequest : Request where
  outputDir := .parse "../out"
  constants := [
    ⟨"PORTS", ⟨"List", false, false, [⟨"Int", false, true, []⟩]⟩,
      .literal (.tuple [.scalar ⟨.long, .int 80⟩, .null])⟩,
    ⟨"HOST", ⟨"Host", false, false, []⟩, .expression ""⟩]
  packageName := "com.demo"
  className := "Ports"
  documentation := none
  topLevel := true
  visibility := .exposed
  language := .java
  markGenerated := true
  classes := ⟨[("Host", ⟨"com.demo.Host", true⟩)]⟩

theorem ofDatum_of_written_reversed :
    ofDatum (.map [
      (.text "types", .map [(.text "Host",
        .map [(.text "container", .bool true), (.text "name", .text "com.demo.Host")])]),
      (.text "output_dir", .text "../out"),
      (.text "generated_annotation", .bool true),
      (.text "documentation", .null),
      (.text "visibility", .text "public"),
      (.text "top_level", .bool true),
      (.text "language", .text "java"),
      (.text "class_name", .text "Ports"),
      (.text "package", .text "com.demo"),
      (.text "fields", .list [
        .map [
          (.text "value", .list [.scalar .long (.int 80), .null]),
          (.text "type", .map [
            (.text "args", .list [.text "Int?"]),
            (.text "nullable", .bool false),
            (.text "array", .bool false),
            (.text "name", .text "List")]),
          (.text "name", .text "PORTS")],
        .map [
          (.text "expression", .text ""),
          (.text "type", .text "Host"),
          (.text "name", .text "HOST")]])])
      (.parse ".") none none = .ok portRequest := by
  have htypes : ∀ c ∈ portRequest.constants, c.type.Writable := by
    have hint : TypeExpr.Writable ⟨"Int", false, true, []⟩ := .intro (by decide) (by simp)
    have hhost : TypeExpr.Writable ⟨"Host", false, false, []⟩ := .intro (by decide) (by simp)
    have hlist : TypeExpr.Writable ⟨"List", false, false, [⟨"Int", false, true, []⟩]⟩ :=
      .intro (by decide) (by simpa using hint)
    simpa [portRequest] using ⟨hlist, hhost⟩
  have hlist : TypeExpr.Written ⟨"List", false, false, [⟨"Int", false, true, []⟩]⟩ (.map [
      (.text "args", .list [.text "Int?"]), (.text "nullable", .bool false),
      (.text "array", .bool false), (.text "name", .text "List")]) := by
    show TypeExpr.Written
      ⟨"List", false, false, [(TypeExpr.mk "Int" false true [], Datum.text "Int?")].map (·.1)⟩ _
    refine .mapping ?_ (holds_of_reverse rfl)
    exact List.forall_mem_singleton.mpr (.shorthand ⟨"Int", false, true, []⟩)
  have hconstants : List.Forall₂ Constant.Written portRequest.constants _ :=
    .cons (.mapping hlist (holds_of_reverse rfl))
      (.cons (.mapping (.shorthand _) (holds_of_reverse rfl)) .nil)
  have hclasses : List.Forall₂ ClassRegistry.Written portRequest.classes.entries _ :=
    .cons (.mapping (holds_of_reverse rfl)) .nil
  exact (ofDatum_of_written (by decide) (by decide) htypes (Path.normal_parse _)).2 _
    (.mapping hconstants hclasses (holds_of_reverse rfl))

end Request

end BuildConstants
