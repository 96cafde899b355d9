import BuildConstants.Generation
import BuildConstants.Proofs.Identifiers
import BuildConstants.Proofs.PathNames

/-!
# The file of a request

Names that a language accepts are parts of a path that lead nowhere else: they hold neither a point
nor a slash. So the file of a request with a source text lies below the output directory, one level
down for each part of the package, and no other package or class has the same file. The temporary
sibling of the file belongs to no request.
-/

namespace BuildConstants

open Outcome Text

namespace Path

/-- A part that leads to an entry of the directory before it. -/
structure IsEntry (s : String) : Prop extends IsName s where
  ne_above : s ≠ ".."

/-- A name that keeps its meaning as a part of a package and as a part of a path. -/
structure IsComponent (s : String) : Prop where
  ne_empty : s ≠ ""
  no_slash : '/' ∉ s.toList
  no_point : '.' ∉ s.toList

theorem IsComponent.of_chars {s : String} (ok : Char → Bool) (hne : s.toList ≠ [])
    (h : ∀ c ∈ s.toList, ok c = true) (hslash : ok '/' = false) (hpoint : ok '.' = false) :
    IsComponent s where
  ne_empty hs := hne (String.toList_eq_nil_iff.mpr hs)
  no_slash hmem := Bool.noConfusion (hslash.symm.trans (h _ hmem))
  no_point hmem := Bool.noConfusion (hpoint.symm.trans (h _ hmem))

/-- Whatever follows it, a component makes an entry with it. -/
theorem IsComponent.isEntry_append {s t : String} (h : IsComponent s) (ht : '/' ∉ t.toList) :
    IsEntry (s ++ t) := by
  obtain ⟨c, cs, hcs⟩ := List.exists_cons_of_ne_nil
    (fun hnil => h.ne_empty (String.toList_eq_nil_iff.mp hnil))
  have hpoint : c ≠ '.' := fun hc => h.no_point (by rw [hcs, hc]; exact List.mem_cons_self)
  have htext : (s ++ t).toList = c :: (cs ++ t.toList) := by
    rw [String.toList_append, hcs, List.cons_append]
  -- The two parts with a meaning of their own start with a point.
  have hother : ∀ u : String, u.toList.head? ≠ some c → s ++ t ≠ u := by
    rintro u hu rfl
    rw [htext] at hu
    exact hu rfl
  have hslash : '/' ∉ (s ++ t).toList := by
    rw [String.toList_append]
    exact fun hmem => (List.mem_append.mp hmem).elim h.no_slash ht
  exact {
    ne_empty := hother "" (by simp)
    ne_here := hother "." (by simpa using hpoint.symm)
    ne_above := hother ".." (by simpa using hpoint.symm)
    no_slash := hslash }

theorem IsComponent.isEntry {s : String} (h : IsComponent s) : IsEntry s := by
  have happend := h.isEntry_append (t := "") (by simp)
  rwa [String.append_empty] at happend

end Path

open BuildConstants.Path

namespace Request

theorem packageParts_of_empty {r : Request} (h : r.packageName = "") : r.packageParts = [] := by
  rw [packageParts, h]
  rfl

theorem packageParts_of_ne {r : Request} (h : r.packageName ≠ "") :
    r.packageParts = split '.' r.packageName := by
  rw [packageParts, if_neg (by rwa [String.isEmpty_iff])]

theorem packageParts_inj {r r' : Request} (h : r.packageParts = r'.packageParts) :
    r.packageName = r'.packageName := by
  have hsplit : ∀ s, split '.' s ≠ [] := fun s hs =>
    splitAt_ne_nil '.' s.toList (List.map_eq_nil_iff.mp hs)
  by_cases hr : r.packageName = ""
  · by_cases hr' : r'.packageName = ""
    · rw [hr, hr']
    · rw [packageParts_of_empty hr, packageParts_of_ne hr'] at h
      exact absurd h.symm (hsplit _)
  · rw [packageParts_of_ne hr] at h
    by_cases hr' : r'.packageName = ""
    · rw [packageParts_of_empty hr'] at h
      exact absurd h (hsplit _)
    · rw [packageParts_of_ne hr'] at h
      exact split_inj h

theorem intercalate_packageParts (r : Request) :
    String.intercalate "." r.packageParts = r.packageName := by
  by_cases h : r.packageName = ""
  · rw [packageParts_of_empty h, h]
    rfl
  · refine String.toList_injective ?_
    rw [packageParts_of_ne h, split, String.toList_intercalate, List.map_map]
    have hid : String.toList ∘ String.ofList = id := funext fun cs => String.toList_ofList
    rw [hid, List.map_id]
    exact intercalate_splitAt '.' r.packageName.toList

/-- What a source text needs of the names of a request. -/
structure Placed (r : Request) : Prop where
  className : IsComponent r.className
  packageParts : ∀ part ∈ r.packageParts, IsComponent part

end Request

namespace Language

theorem component_of_identifier {l : Language} {name quoted : String}
    (h : l.dialect.identifier name = .ok quoted) : IsComponent name := by
  obtain ⟨-, -, run⟩ | ⟨-, -, token⟩ := run_or_quoted h
  · obtain ⟨hne, hparts⟩ := run.of_withoutFinalBreak
    refine .of_chars (fun c => l.isPart c || c == '\n') hne ?_ ?_ ?_
    · intro c hc
      simpa using hparts c hc
    · cases l <;> decide
    · cases l <;> decide
  · cases token with
    | plain run _ =>
      refine .of_chars l.isPart run.ne_nil run.parts ?_ ?_
      · cases l <;> decide
      · cases l <;> decide
    | quoted nonempty allowed =>
      refine .of_chars (fun c => !Kotlin.isForbidden c) ?_ ?_ (by decide) (by decide)
      · exact fun hnil => nonempty (String.toList_eq_nil_iff.mp hnil)
      · intro c hc
        rw [allowed c hc]
        rfl

theorem placed_of_source {l : Language} {r : Request} {text : String}
    (h : l.dialect.source r = .ok text) : r.Placed := by
  obtain ⟨ds, -, h⟩ := bind_eq_ok_iff.mp h
  obtain ⟨ls, name, names, -, hlines⟩ := lines_of_assemble h
  refine ⟨component_of_identifier hlines.identifier_className, fun part hpart => ?_⟩
  obtain ⟨quoted, hquoted⟩ := Literal.exists_of_collect hlines.identifier_package hpart
  exact component_of_identifier hquoted

def fileName (l : Language) (r : Request) : String :=
  r.className ++ l.dialect.extension

theorem isEntry_fileName (l : Language) {r : Request} (h : r.Placed) :
    IsEntry (l.fileName r) := by
  refine h.className.isEntry_append ?_
  cases l <;> decide

theorem outputPath_eq (l : Language) {r : Request} (h : r.Placed) :
    l.dialect.outputPath r =
      ⟨r.outputDir.root, r.outputDir.parts ++ r.packageParts ++ [l.fileName r]⟩ := by
  have hpackage : ∀ part ∈ r.packageParts, IsName part := fun part hpart =>
    (h.packageParts part hpart).isEntry.toIsName
  rw [Dialect.outputPath, foldl_child hpackage]
  exact child_of_isName (l.isEntry_fileName h).toIsName _

theorem fileName_inj {l : Language} {r r' : Request} (h : l.fileName r = l.fileName r') :
    r.className = r'.className := by
  have htext := congrArg String.toList h
  rw [fileName, fileName, String.toList_append, String.toList_append] at htext
  exact String.toList_injective (List.append_cancel_right htext)

/-- A temporary name ends with another character than every file name. -/
theorem fileName_ne_temporary (l : Language) (r r' : Request) :
    l.fileName r' ≠ l.fileName r ++ FileTree.temporarySuffix := by
  intro h
  have hlast := congrArg (fun s => s.toList.getLast?) h
  cases l <;> simp [fileName, dialect, Kotlin.dialect, Java.dialect, FileTree.temporarySuffix]
    at hlast

/-- The file of a request lies below its output directory at the place of its package and class,
no other package or class has that file, and no request has its temporary sibling. -/
theorem outputPath_confined (l : Language) {r : Request} {text : String}
    (h : l.dialect.source r = .ok text) :
    String.intercalate "." r.packageParts = r.packageName ∧
    (∀ part ∈ r.packageParts, '.' ∉ part.toList) ∧
    l.dialect.outputPath r = ⟨r.outputDir.root,
      r.outputDir.parts ++ r.packageParts ++ [r.className ++ l.dialect.extension]⟩ ∧
    (∀ part ∈ r.packageParts ++ [r.className ++ l.dialect.extension],
      part ≠ "" ∧ '/' ∉ part.toList ∧ part ≠ "." ∧ part ≠ "..") ∧
    (l.dialect.outputPath r).parts.length =
      r.outputDir.parts.length + (r.packageParts.length + 1) ∧
    ∃ temporary, (l.dialect.outputPath r).withSuffix? FileTree.temporarySuffix = some temporary ∧
      temporary.parent = (l.dialect.outputPath r).parent ∧
      ∀ r' text', l.dialect.source r' = .ok text' → r'.outputDir = r.outputDir →
        l.dialect.outputPath r' ≠ temporary ∧
        (l.dialect.outputPath r' = l.dialect.outputPath r →
          r'.packageName = r.packageName ∧ r'.className = r.className) := by
  have hplaced := placed_of_source h
  have hpath := l.outputPath_eq hplaced
  have hsuffix : (l.dialect.outputPath r).withSuffix? FileTree.temporarySuffix =
      some ⟨r.outputDir.root,
        r.outputDir.parts ++ r.packageParts ++ [l.fileName r ++ FileTree.temporarySuffix]⟩ := by
    rw [hpath]
    simp [withSuffix?, name?]
  refine ⟨r.intercalate_packageParts, fun part hpart => (hplaced.packageParts part hpart).no_point,
    hpath, ?_, by rw [hpath]; simp, _, hsuffix, parent_withSuffix? hsuffix, ?_⟩
  · intro part hpart
    have hentry : IsEntry part := by
      rcases List.mem_append.mp hpart with hpart | hpart
      · exact (hplaced.packageParts part hpart).isEntry
      · obtain rfl := List.mem_singleton.mp hpart
        exact l.isEntry_fileName hplaced
    exact ⟨hentry.ne_empty, hentry.no_slash, hentry.ne_here, hentry.ne_above⟩
  · intro r' text' h' hdir
    have hpath' := l.outputPath_eq (placed_of_source h')
    rw [hpath', hdir]
    constructor
    · intro hsame
      have hparts := congrArg Path.parts hsame
      obtain ⟨-, hlast⟩ := List.append_inj' hparts rfl
      exact l.fileName_ne_temporary r r' (List.singleton_inj.mp hlast)
    · intro hsame
      rw [hpath] at hsame
      have hparts := congrArg Path.parts hsame
      obtain ⟨hdirs, hlast⟩ := List.append_inj' hparts rfl
      exact ⟨Request.packageParts_inj (List.append_cancel_left hdirs),
        fileName_inj (List.singleton_inj.mp hlast)⟩

end Language

/-- A request that says no more than where its file belongs. -/
def Request.ofNames (outputDir : Path) (packageName className : String) : Request :=
  { Request.ofConstants outputDir [] with packageName := packageName, className := className }

open BuildConstants.Language in
theorem Language.outputPath_confined_quoted :
    kotlin.dialect.source (Request.ofNames (.parse "/srv/../out") "com.fun" "my config") =
      .ok "package com.\x60fun\x60\n\ninternal object \x60my config\x60\n" ∧
    kotlin.dialect.source (Request.ofNames (.parse "/srv/../out") "com" "fun") =
      .ok "package com\n\ninternal object \x60fun\x60\n" ∧
    (kotlin.dialect.outputPath
      (Request.ofNames (.parse "/srv/../out") "com.fun" "my config")).parts =
      ["srv", "..", "out", "com", "fun", "my config.kt"] ∧
    kotlin.dialect.outputPath (Request.ofNames (.parse "/srv/../out") "com" "fun") ≠
      kotlin.dialect.outputPath
        (Request.ofNames (.parse "/srv/../out") "com.fun" "my config") := by
  have hquoted : kotlin.dialect.source
      (Request.ofNames (.parse "/srv/../out") "com.fun" "my config") =
      .ok "package com.\x60fun\x60\n\ninternal object \x60my config\x60\n" := rfl
  have hshort : kotlin.dialect.source (Request.ofNames (.parse "/srv/../out") "com" "fun") =
      .ok "package com\n\ninternal object \x60fun\x60\n" := rfl
  obtain ⟨-, -, hpath, -, -, temporary, -, -, hothers⟩ := outputPath_confined kotlin hquoted
  refine ⟨hquoted, hshort, ?_, fun hsame => ?_⟩
  · rw [hpath]
    rfl
  · obtain ⟨hpackage, -⟩ := (hothers _ _ hshort rfl).2 hsame
    exact absurd hpackage (by decide)

end BuildConstants
