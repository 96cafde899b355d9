import BuildConstants.Proofs.Outcome
import BuildConstants.Request.Load

/-!
# Loading requests

A request is read in four steps, each of which may fail. The file counts only as far as it can be
looked at and read, and the library of the host has the say about its text. What overrides the
output directory or the language changes nothing else of it, so requests of one file for one
language have one source text.
-/

namespace BuildConstants

open Outcome

namespace Request

/-- The request of a mapping whose parts have been read. -/
def ofForm (form : Datum) (outputDir : Path) (language : Language) (constants : List Constant)
    (classes : ClassRegistry) : Request where
  outputDir := outputDir
  constants := Constant.distinct constants
  packageName := form.textField "package"
  className := form.textField "class_name"
  documentation := form.optionalTextField "documentation"
  topLevel := form.flagField "top_level"
  visibility := visibilityField form
  language := language
  markGenerated := form.flagField "generated_annotation"
  classes := classes

theorem ofDatum_eq_ok_iff {raw : Datum} {baseDir : Path} {outputDir : Option Path}
    {override : Option String} {r : Request} :
    ofDatum raw baseDir outputDir override = .ok r ↔ ∃ form language constants classes,
      Schema.request.build "RequestCfg" [] raw = .ok form ∧
      chooseLanguage form override = .ok language ∧
      Constant.readAll 0 (form.listField "fields") = .ok constants ∧
      ClassRegistry.empty.read (form.mapField "types") = .ok classes ∧
      ofForm form (outputDir.getD (baseDir.child (form.textField "output_dir"))) language constants
        classes = r := by
  rw [ofDatum]
  simp only [bind_eq_ok_iff, pure_eq_ok, Except.ok.injEq, ofForm]
  constructor
  · rintro ⟨form, hform, language, hlanguage, constants, hconstants, classes, hclasses, hr⟩
    exact ⟨form, language, constants, classes, hform, hlanguage, hconstants, hclasses, hr⟩
  · rintro ⟨form, language, constants, classes, hform, hlanguage, hconstants, hclasses, hr⟩
    exact ⟨form, hform, language, hlanguage, constants, hconstants, classes, hclasses, hr⟩

theorem source_outputDir (r : Request) (p : Path) :
    source { r with outputDir := p } = r.source := by
  rw [source, source]
  cases r.language <;> rfl

theorem readText_eq_ok_iff {access : Access} {tree : FileTree} {p : Path} {content : String} :
    readText access tree p = .ok content ↔ FileTree.unusable? p = none ∧ access.stat p = none ∧
      tree.content? p = some content ∧ access.read p = none ∧ access.decoding p = none := by
  unfold readText
  cases FileTree.unusable? p with
  | some e => simp
  | none =>
    cases access.stat p with
    | some e => simp
    | none =>
      cases hcontent : tree.content? p with
      | none => cases tree.lookError? p <;> simp
      | some text =>
        rw [FileTree.lookError?_of_content? hcontent]
        cases access.read p with
        | some e => simp
        | none => cases access.decoding p <;> simp

section Overriding

variable {ε : Type} {host : Host ε} {raw : Datum} {baseDir : Path}
  {outputDir outputDir' : Option Path}
  {override override' : Option String} {r r' : Request} {tree : FileTree} {p : Path}

/-- Options that override change only what they are about. -/
theorem ofDatum_override (h : ofDatum raw baseDir outputDir override = .ok r)
    (h' : ofDatum raw baseDir outputDir' override' = .ok r') :
    r' = { r with outputDir := r'.outputDir, language := r'.language } := by
  obtain ⟨form, language, constants, classes, hform, -, hconstants, hclasses, rfl⟩ :=
    ofDatum_eq_ok_iff.mp h
  obtain ⟨form', language', constants', classes', hform', -, hconstants', hclasses', rfl⟩ :=
    ofDatum_eq_ok_iff.mp h'
  obtain rfl := Except.ok.inj (hform.symm.trans hform')
  obtain rfl := Except.ok.inj (hconstants.symm.trans hconstants')
  obtain rfl := Except.ok.inj (hclasses.symm.trans hclasses')
  rfl

theorem exists_ofDatum (h : ofDatum raw baseDir outputDir override = .ok r)
    (outputDir' : Option Path) :
    ∃ r', ofDatum raw baseDir outputDir' override = .ok r' ∧ r'.language = r.language := by
  obtain ⟨form, language, constants, classes, hform, hlanguage, hconstants, hclasses, rfl⟩ :=
    ofDatum_eq_ok_iff.mp h
  exact ⟨_, ofDatum_eq_ok_iff.mpr
    ⟨form, language, constants, classes, hform, hlanguage, hconstants, hclasses, rfl⟩, rfl⟩

theorem loadWith_eq_ok_iff : loadWith host tree p outputDir override = .ok r ↔ ∃ content raw,
    readText host.access tree p = .ok content ∧
    readMapping host.library p.text content = .ok raw ∧
    ofDatum raw p.parent outputDir override = .ok r := by
  simp only [loadWith, bind_eq_ok_iff, Failure.lift_eq_ok_iff]
  constructor
  · rintro ⟨content, hcontent, raw, hraw, hr⟩
    exact ⟨content, raw, hcontent, hraw, hr⟩
  · rintro ⟨content, raw, hcontent, hraw, hr⟩
    exact ⟨content, hcontent, raw, hraw, hr⟩

/-- Two requests of one file for one language have the same source text. -/
theorem source_eq_of_loadWith (h : loadWith host tree p outputDir override = .ok r)
    (h' : loadWith host tree p outputDir' override' = .ok r')
    (hlanguage : r'.language = r.language) :
    r'.source = r.source := by
  obtain ⟨content, raw, hcontent, hraw, hr⟩ := loadWith_eq_ok_iff.mp h
  obtain ⟨content', raw', hcontent', hraw', hr'⟩ := loadWith_eq_ok_iff.mp h'
  obtain rfl := Except.ok.inj (hcontent.symm.trans hcontent')
  obtain rfl := Except.ok.inj (hraw.symm.trans hraw')
  rw [ofDatum_override hr hr', hlanguage]
  exact r.source_outputDir _

theorem exists_loadWith (h : loadWith host tree p outputDir override = .ok r)
    (outputDir' : Option Path) :
    ∃ r', loadWith host tree p outputDir' override = .ok r' ∧ r'.language = r.language := by
  obtain ⟨content, raw, hcontent, hraw, hr⟩ := loadWith_eq_ok_iff.mp h
  obtain ⟨r', hr', hlanguage⟩ := exists_ofDatum hr outputDir'
  exact ⟨r', loadWith_eq_ok_iff.mpr ⟨content, raw, hcontent, hraw, hr'⟩, hlanguage⟩

/-- A request is loaded again from a tree in which its file has the same content. -/
theorem loadWith_of_content?_eq {tree' : FileTree}
    (h : loadWith host tree p outputDir override = .ok r)
    (hkept : tree'.content? p = tree.content? p) :
    loadWith host tree' p outputDir override = .ok r := by
  obtain ⟨content, raw, hcontent, hraw, hr⟩ := loadWith_eq_ok_iff.mp h
  rw [readText_eq_ok_iff, ← hkept, ← readText_eq_ok_iff] at hcontent
  exact loadWith_eq_ok_iff.mpr ⟨content, raw, hcontent, hraw, hr⟩

end Overriding

end Request

end BuildConstants
