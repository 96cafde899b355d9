import BuildConstants.Generation
import BuildConstants.Proofs.Legibility

/-!
# Identifiers

What a language accepts as an identifier is one token of it: a run of name characters that is no
keyword or, in Kotlin, a name between backticks. Names that end with a line feed are the exception.
A line feed behind a run is passed over by the check, and it is emitted with the name. Whatever is
accepted, different names have different texts. The names of a request stand in its source text as
these texts.
-/

namespace BuildConstants

open Outcome Text

namespace Text

/-- A run of name characters with no digit in front. -/
structure IsRun (part : Char → Bool) (cs : List Char) : Prop where
  ne_nil : cs ≠ []
  parts : ∀ c ∈ cs, part c = true
  front : ∀ c ∈ cs.head?, isDecimalDigit c = false

theorem withoutFinalBreak_break (cs : List Char) : withoutFinalBreak (cs ++ ['\n']) = cs := by
  simp [withoutFinalBreak]

theorem withoutFinalBreak_of_ne {cs : List Char} (h : cs.getLast? ≠ some '\n') :
    withoutFinalBreak cs = cs := by
  rw [withoutFinalBreak, if_neg h]

theorem withoutFinalBreak_begins (cs : List Char) : withoutFinalBreak cs <+: cs := by
  rw [withoutFinalBreak]
  split
  · exact List.dropLast_prefix cs
  · exact List.prefix_rfl

theorem isPlainName_iff {start part : Char → Bool}
    (hstart : ∀ c, start c = (part c && !isDecimalDigit c)) {cs : List Char} :
    isPlainName start part cs = true ↔ IsRun part (withoutFinalBreak cs) := by
  rw [isPlainName]
  cases withoutFinalBreak cs with
  | nil => exact ⟨nofun, fun h => absurd rfl h.ne_nil⟩
  | cons c rest =>
    simp only [hstart, Bool.and_eq_true, Bool.not_eq_true', List.all_eq_true]
    constructor
    · rintro ⟨⟨hc, hdigit⟩, hrest⟩
      refine ⟨List.cons_ne_nil c rest, List.forall_mem_cons.mpr ⟨hc, hrest⟩, ?_⟩
      rintro _ ⟨⟩
      exact hdigit
    · intro h
      obtain ⟨hc, hrest⟩ := List.forall_mem_cons.mp h.parts
      exact ⟨⟨hc, h.front c rfl⟩, hrest⟩

theorem IsRun.head?_ne {part : Char → Bool} {cs ds : List Char} (h : IsRun part cs)
    (hds : cs <+: ds) {c : Char} (hc : part c = false) : ds.head? ≠ some c := by
  obtain ⟨rest, rfl⟩ := hds
  cases cs with
  | nil => exact absurd rfl h.ne_nil
  | cons d cs =>
    rintro ⟨⟩
    exact Bool.noConfusion (hc.symm.trans (h.parts c List.mem_cons_self))

theorem IsRun.of_withoutFinalBreak {part : Char → Bool} {cs : List Char}
    (h : IsRun part (withoutFinalBreak cs)) :
    cs ≠ [] ∧ ∀ c ∈ cs, part c = true ∨ c = '\n' := by
  by_cases hend : cs.getLast? = some '\n'
  · obtain ⟨ds, rfl⟩ := List.getLast?_eq_some_iff.mp hend
    rw [withoutFinalBreak_break] at h
    refine ⟨by simp, fun c hc => ?_⟩
    obtain hc | hc := List.mem_append.mp hc
    · exact .inl (h.parts c hc)
    · exact .inr (List.mem_singleton.mp hc)
  · rw [withoutFinalBreak_of_ne hend] at h
    exact ⟨h.ne_nil, fun c hc => .inl (h.parts c hc)⟩

end Text

theorem Kotlin.isPlainName_iff_isRun (cs : List Char) :
    isPlainName isWordStart isWord cs = true ↔ IsRun isWord (withoutFinalBreak cs) :=
  isPlainName_iff fun _ => rfl

theorem Java.isPlainName_iff_isRun (cs : List Char) :
    isPlainName isNameStart isNamePart cs = true ↔ IsRun isNamePart (withoutFinalBreak cs) := by
  apply isPlainName_iff
  intro c
  by_cases hc : c = '$'
  · subst hc
    decide
  · have hdollar : (c == '$') = false := beq_false_of_ne hc
    rw [isNameStart, isNamePart, isWordStart, hdollar, Bool.or_false, Bool.or_false]

def Kotlin.quoted (name : String) : String :=
  String.ofList (backtick :: (name.toList ++ [backtick]))

theorem Kotlin.quoted_inj {name other : String} (h : quoted name = quoted other) :
    name = other := by
  obtain ⟨-, hname⟩ := List.cons.inj (String.ofList_injective h)
  exact String.toList_injective (List.append_cancel_right hname)

namespace Language

def keywords : Language → List String
  | kotlin => Kotlin.keywords
  | java => Java.keywords

def isPart : Language → Char → Bool
  | kotlin => isWord
  | java => Java.isNamePart

/-- The text of a name that is a single token of the language. -/
inductive Token : Language → String → String → Prop
  | plain {l : Language} {name : String} (run : IsRun l.isPart name.toList)
      (free : name ∉ l.keywords) : Token l name name
  | quoted {name : String} (nonempty : name ≠ "")
      (allowed : ∀ c ∈ name.toList, Kotlin.isForbidden c = false) :
      Token kotlin name (Kotlin.quoted name)

/-- A text with no break of a line. -/
def Unbroken (s : String) : Prop :=
  '\n' ∉ s.toList ∧ '\r' ∉ s.toList

theorem isPart_separators (l : Language) :
    l.isPart '\n' = false ∧ l.isPart '\r' = false ∧ l.isPart Kotlin.backtick = false := by
  cases l <;> decide

theorem keywords_unbroken (l : Language) : ∀ k ∈ l.keywords, '\n' ∉ k.toList := by
  cases l <;> decide

theorem keywords_unquoted : ∀ k ∈ Kotlin.keywords, k.toList.head? ≠ some Kotlin.backtick := by
  decide

theorem Token.unbroken {l : Language} {name text : String} (h : Token l name text) :
    Unbroken text := by
  cases h with
  | plain run =>
    obtain ⟨hfeed, hreturn, -⟩ := l.isPart_separators
    exact ⟨fun hmem => Bool.noConfusion (hfeed.symm.trans (run.parts _ hmem)),
      fun hmem => Bool.noConfusion (hreturn.symm.trans (run.parts _ hmem))⟩
  | quoted _ allowed =>
    have hfree : ∀ c, Kotlin.isForbidden c = true → c ≠ Kotlin.backtick →
        c ∉ (Kotlin.quoted name).toList := by
      intro c hc hquote hmem
      rw [Kotlin.quoted, String.toList_ofList, List.mem_cons, List.mem_append,
        List.mem_singleton] at hmem
      obtain rfl | hmem | rfl := hmem
      · exact hquote rfl
      · exact Bool.noConfusion ((allowed c hmem).symm.trans hc)
      · exact hquote rfl
    exact ⟨hfree _ (by decide) (by decide), hfree _ (by decide) (by decide)⟩

theorem Token.not_mem_keywords {l : Language} {name text : String} (h : Token l name text) :
    text ∉ l.keywords := by
  cases h with
  | plain _ free => exact free
  | quoted =>
    intro hmem
    apply keywords_unquoted _ hmem
    rw [Kotlin.quoted, String.toList_ofList, List.head?_cons]

theorem identifier_of_run {l : Language} {name : String} (free : name ∉ l.keywords)
    (run : IsRun l.isPart (withoutFinalBreak name.toList)) :
    l.dialect.identifier name = .ok name := by
  cases l with
  | kotlin =>
    have hplain := (Kotlin.isPlainName_iff_isRun _).mpr run
    have hfree : Kotlin.keywords.contains name = false :=
      Bool.eq_false_iff.mpr fun hmem => free (List.contains_iff_mem.mp hmem)
    show Kotlin.identifier name = .ok name
    rw [Kotlin.identifier, hplain, hfree]
    rfl
  | java =>
    have hplain := (Java.isPlainName_iff_isRun _).mpr run
    have hfree : Java.keywords.contains name = false :=
      Bool.eq_false_iff.mpr fun hmem => free (List.contains_iff_mem.mp hmem)
    show Java.identifier name = .ok name
    rw [Java.identifier, hfree, hplain]
    rfl

/-- An accepted name is a run, where a line feed behind it does not count, or it is quoted. -/
theorem run_or_quoted {l : Language} {name text : String}
    (h : l.dialect.identifier name = .ok text) :
    (text = name ∧ name ∉ l.keywords ∧ IsRun l.isPart (withoutFinalBreak name.toList)) ∨
      (text = Kotlin.quoted name ∧ '\n' ∉ name.toList ∧ Token l name text) := by
  cases l with
  | kotlin =>
    change Kotlin.identifier name = .ok text at h
    rw [Kotlin.identifier] at h
    split at h
    · rename_i hplain
      obtain ⟨⟩ := h
      rw [Bool.and_eq_true, Kotlin.isPlainName_iff_isRun, Bool.not_eq_true'] at hplain
      exact .inl ⟨rfl, fun hmem => Bool.noConfusion
        (hplain.2.symm.trans (List.contains_iff_mem.mpr hmem)), hplain.1⟩
    · split at h
      · cases h
      · rename_i hallowed
        obtain ⟨⟩ := h
        simp only [Bool.or_eq_true, not_or, Bool.not_eq_true, List.any_eq_false] at hallowed
        obtain ⟨⟨hempty, -⟩, hforbidden⟩ := hallowed
        have hfree : ∀ c ∈ name.toList, Kotlin.isForbidden c = false := hforbidden
        refine .inr ⟨rfl, fun hmem => ?_, .quoted ?_ hfree⟩
        · exact absurd (hfree _ hmem) (by decide)
        · rintro rfl
          cases hempty
  | java =>
    change Java.identifier name = .ok text at h
    rw [Java.identifier] at h
    split at h
    · cases h
    · rename_i hfree
      split at h
      · rename_i hplain
        obtain ⟨⟩ := h
        exact .inl ⟨rfl, fun hmem => hfree (List.contains_iff_mem.mpr hmem),
          (Java.isPlainName_iff_isRun _).mp hplain⟩
      · cases h

theorem token_of_identifier {l : Language} {name text : String}
    (h : l.dialect.identifier name = .ok text) (hend : name.toList.getLast? ≠ some '\n') :
    Token l name text := by
  obtain ⟨rfl, free, run⟩ | ⟨-, -, token⟩ := run_or_quoted h
  · rw [withoutFinalBreak_of_ne hend] at run
    exact .plain run free
  · exact token

theorem identifier_break_iff {l : Language} {stem text : String} :
    l.dialect.identifier (stem ++ "\n") = .ok text ↔
      text = stem ++ "\n" ∧ IsRun l.isPart stem.toList := by
  have hbreak : withoutFinalBreak (stem ++ "\n").toList = stem.toList := by
    rw [String.toList_append]
    exact withoutFinalBreak_break stem.toList
  have hmem : '\n' ∈ (stem ++ "\n").toList := by simp
  constructor
  · intro h
    obtain ⟨rfl, -, run⟩ | ⟨-, hfree, -⟩ := run_or_quoted h
    · rw [hbreak] at run
      exact ⟨rfl, run⟩
    · exact absurd hmem hfree
  · rintro ⟨rfl, run⟩
    apply identifier_of_run
    · exact fun hkeyword => l.keywords_unbroken _ hkeyword hmem
    · rwa [hbreak]

/-- Quoted and plain texts never meet. -/
theorem identifier_inj {l : Language} {name other text : String}
    (h : l.dialect.identifier name = .ok text) (h' : l.dialect.identifier other = .ok text) :
    name = other := by
  have hplain : ∀ s : String, IsRun l.isPart (withoutFinalBreak s.toList) →
      ∀ t, s ≠ Kotlin.quoted t := by
    rintro s run t rfl
    apply run.head?_ne (withoutFinalBreak_begins _) l.isPart_separators.2.2
    rw [Kotlin.quoted, String.toList_ofList, List.head?_cons]
  obtain ⟨rfl, -, run⟩ | ⟨rfl, -⟩ := run_or_quoted h
  · obtain ⟨rfl, -⟩ | ⟨hquoted, -⟩ := run_or_quoted h'
    · rfl
    · exact absurd hquoted (hplain _ run _)
  · obtain ⟨rfl, -, run⟩ | ⟨hquoted, -⟩ := run_or_quoted h'
    · exact absurd rfl (hplain _ run _)
    · exact Kotlin.quoted_inj hquoted

end Language

/-- A declaration is made under the identifier of its constant. -/
theorem Dialect.identifier_of_emit {d : Dialect} {c : Constant} {classes : ClassRegistry}
    {declaration : Declaration} (h : d.emit c classes = .ok declaration) :
    d.identifier c.name = .ok declaration.name := by
  unfold emit at h
  split at h
  · rename_i made
    obtain rfl := Except.ok.inj h
    obtain ⟨name, hname, made⟩ := bind_eq_ok_iff.mp made
    obtain ⟨_, -, made⟩ := bind_eq_ok_iff.mp made
    obtain ⟨_, -, made⟩ := bind_eq_ok_iff.mp made
    obtain rfl := Except.ok.inj made
    exact hname
  · cases h

theorem Dialect.names_of_emitAll {d : Dialect} {classes : ClassRegistry} {cs : List Constant}
    {ds : List Declaration} (h : d.emitAll classes cs = .ok ds) :
    collect d.identifier (cs.map (·.name)) = .ok (ds.map (·.name)) := by
  induction cs generalizing ds with
  | nil =>
    obtain rfl := Except.ok.inj h
    rfl
  | cons c rest ih =>
    obtain ⟨declaration, hc, h⟩ := bind_eq_ok_iff.mp h
    obtain ⟨others, hothers, h⟩ := bind_eq_ok_iff.mp h
    obtain rfl := Except.ok.inj h
    rw [List.map_cons, collect, Dialect.identifier_of_emit hc, ok_bind, ih hothers]
    rfl

/-- A name stands in one of the lines, behind a space. -/
def StandsIn (name : String) (ls : List String) : Prop :=
  ∃ line ∈ ls, (" " ++ name).toList <:+: line.toList

theorem StandsIn.of_lines {name : String} {ls ls' : List String} (h : StandsIn name ls)
    (hls : ∀ line ∈ ls, ∃ line' ∈ ls', line.toList <:+: line'.toList) : StandsIn name ls' := by
  obtain ⟨line, hline, hname⟩ := h
  obtain ⟨line', hline', hpart⟩ := hls line hline
  exact ⟨line', hline', hname.trans hpart⟩

theorem StandsIn.mono {name : String} {ls ls' : List String} (h : StandsIn name ls)
    (hls : ls ⊆ ls') : StandsIn name ls' :=
  h.of_lines fun line hline => ⟨line, hls hline, List.infix_rfl⟩

/-- The lines of a source text with the identifiers of a request in them. Where Kotlin declares
constants of the file itself, the name of the class is checked and not written. -/
structure SourceLines (l : Language) (r : Request) (ds : List Declaration) (ls : List String)
    (className : String) (package : List String) : Prop where
  identifier_className : l.dialect.identifier r.className = .ok className
  identifier_package : collect l.dialect.identifier r.packageParts = .ok package
  stands_className : l = .java ∨ r.topLevel = false → StandsIn className ls
  stands_package : package ≠ [] → StandsIn (String.intercalate "." package) ls
  stands_declared : ∀ d ∈ ds, StandsIn d.name ls

namespace Kotlin

theorem stands_declare {v : Visibility} {d : Declaration} {line : String}
    (h : declare v d = .ok line) : (" " ++ d.name).toList <:+: line.toList := by
  obtain ⟨type, -, h⟩ := bind_eq_ok_iff.mp h
  obtain rfl := Except.ok.inj h
  exact ⟨(v.name ++ " " ++ (if d.constant then "const " else "") ++ "val").toList,
    (": " ++ type ++ " = " ++ d.initializer).toList, by simp⟩

theorem stands_packageLines {r : Request} {ls : List String} (h : packageLines r = .ok ls) :
    ∃ package, collect identifier r.packageParts = .ok package ∧
      (package ≠ [] → StandsIn (String.intercalate "." package) ls) := by
  unfold packageLines at h
  split at h
  · rename_i hparts
    exact ⟨[], by rw [hparts, collect], fun hne => absurd rfl hne⟩
  · obtain ⟨package, hpackage, h⟩ := bind_eq_ok_iff.mp h
    obtain rfl := Except.ok.inj h
    exact ⟨package, hpackage, fun _ => ⟨_, List.mem_cons_self, "package".toList, [], by simp⟩⟩

theorem mem_separated {line : String} {ls : List String} (h : line ∈ ls) :
    line ∈ separated ls := by
  fun_induction separated ls with
  | case1 => exact h
  | case2 => exact h
  | case3 l rest _ ih =>
    obtain rfl | h := List.mem_cons.mp h
    · exact List.mem_cons_self
    · exact List.mem_cons_of_mem _ (List.mem_cons_of_mem _ (ih h))

theorem stands_objectLines (v : Visibility) (name : String) (declarations : List String) :
    StandsIn name (objectLines v name declarations) := by
  unfold objectLines
  split
  · exact ⟨_, List.mem_cons_self, (v.name ++ " object").toList, [], by simp⟩
  · exact ⟨_, List.mem_cons_self, (v.name ++ " object").toList, " \x7b".toList, by simp⟩

theorem mem_objectLines (v : Visibility) (name : String) {declarations : List String}
    {line : String} (h : line ∈ declarations) :
    indent ++ line ∈ objectLines v name declarations := by
  unfold objectLines
  split
  · rename_i hempty
    rw [List.isEmpty_iff.mp hempty] at h
    cases h
  · apply List.mem_cons_of_mem
    apply List.mem_append_left
    exact List.mem_map_of_mem h

theorem lines_of_assemble {r : Request} {ds : List Declaration} {text : String}
    (h : assemble r ds = .ok text) : ∃ ls className package, text = joinLines ls ∧
      SourceLines .kotlin r ds ls className package := by
  obtain ⟨className, hname, h⟩ := bind_eq_ok_iff.mp h
  obtain ⟨lines, hlines, h⟩ := bind_eq_ok_iff.mp h
  obtain ⟨declarations, hdeclarations, h⟩ := bind_eq_ok_iff.mp h
  obtain ⟨package, hpackage, hstands⟩ := stands_packageLines hlines
  have hdeclared : ∀ d ∈ ds, StandsIn d.name declarations := by
    intro d hd
    obtain ⟨line, hline, hdeclare⟩ := Literal.exists_mem_of_collect hdeclarations hd
    exact ⟨line, hline, stands_declare hdeclare⟩
  split at h
  · rename_i htop
    obtain rfl := Except.ok.inj h
    refine ⟨_, className, package, rfl, hname, hpackage, ?_, ?_, ?_⟩
    · rintro (⟨⟨⟩⟩ | hfalse)
      exact Bool.noConfusion (hfalse.symm.trans htop)
    · intro hne
      apply (hstands hne).mono
      intro line hline
      exact List.mem_append_left _ (List.mem_append_right _ hline)
    · intro d hd
      apply (hdeclared d hd).mono
      intro line hline
      exact List.mem_append_right _ (mem_separated hline)
  · obtain rfl := Except.ok.inj h
    refine ⟨_, className, package, rfl, hname, hpackage, ?_, ?_, ?_⟩
    · intro _
      exact (stands_objectLines r.visibility className declarations).mono
        (List.subset_append_right _ _)
    · intro hne
      apply (hstands hne).mono
      intro line hline
      exact List.mem_append_left _ (List.mem_append_left _ hline)
    · intro d hd
      apply (hdeclared d hd).of_lines
      intro line hline
      refine ⟨indent ++ line, ?_, indent.toList, [], by simp⟩
      exact List.mem_append_right _ (mem_objectLines r.visibility className hline)

end Kotlin

namespace Java

theorem stands_declare {v : Visibility} {d : Declaration} {line : String}
    (h : declare v d = .ok line) : (" " ++ d.name).toList <:+: line.toList := by
  obtain ⟨type, -, h⟩ := bind_eq_ok_iff.mp h
  obtain rfl := Except.ok.inj h
  exact ⟨(modifier v ++ "static final " ++ type).toList,
    (" = " ++ d.initializer ++ ";").toList, by simp⟩

theorem stands_packageLines {r : Request} {ls : List String} (h : packageLines r = .ok ls) :
    ∃ package, collect identifier r.packageParts = .ok package ∧
      (package ≠ [] → StandsIn (String.intercalate "." package) ls) := by
  unfold packageLines at h
  split at h
  · rename_i hparts
    exact ⟨[], by rw [hparts, collect], fun hne => absurd rfl hne⟩
  · obtain ⟨package, hpackage, h⟩ := bind_eq_ok_iff.mp h
    obtain rfl := Except.ok.inj h
    exact ⟨package, hpackage, fun _ => ⟨_, List.mem_cons_self, "package".toList, [';'], by simp⟩⟩

theorem stands_classLines (v : Visibility) (name : String) (declarations : List String) :
    StandsIn name (classLines v name declarations) :=
  ⟨_, List.mem_cons_self, (modifier v ++ "final class").toList, " \x7b".toList, by simp⟩

theorem lines_of_assemble {r : Request} {ds : List Declaration} {text : String}
    (h : assemble r ds = .ok text) : ∃ ls className package, text = joinLines ls ∧
      SourceLines .java r ds ls className package := by
  obtain ⟨className, hname, h⟩ := bind_eq_ok_iff.mp h
  obtain ⟨lines, hlines, h⟩ := bind_eq_ok_iff.mp h
  obtain ⟨declarations, hdeclarations, h⟩ := bind_eq_ok_iff.mp h
  obtain ⟨package, hpackage, hstands⟩ := stands_packageLines hlines
  obtain rfl := Except.ok.inj h
  refine ⟨_, className, package, rfl, hname, hpackage, ?_, ?_, ?_⟩
  · intro _
    exact (stands_classLines r.visibility className declarations).mono
      (List.subset_append_right _ _)
  · intro hne
    apply (hstands hne).mono
    intro line hline
    exact List.mem_append_left _ (List.mem_append_left _ (List.mem_append_left _ hline))
  · intro d hd
    obtain ⟨line, hline, hdeclare⟩ := Literal.exists_mem_of_collect hdeclarations hd
    refine ⟨indent ++ line, ?_, ?_⟩
    · apply List.mem_append_right
      apply List.mem_cons_of_mem
      apply List.mem_append_left
      apply List.mem_append_left
      exact List.mem_map_of_mem hline
    · exact (stands_declare hdeclare).trans ⟨indent.toList, [], by simp⟩

end Java

namespace Language

theorem lines_of_assemble {l : Language} {r : Request} {ds : List Declaration} {text : String}
    (h : l.dialect.assemble r ds = .ok text) : ∃ ls className package, text = joinLines ls ∧
      SourceLines l r ds ls className package := by
  cases l with
  | kotlin => exact Kotlin.lines_of_assemble h
  | java => exact Java.lines_of_assemble h

/-- Every accepted name becomes a single token, unless it ends with a line feed: such a name is
accepted exactly if a run stands before the line feed, a keyword or not, and it is emitted as it
is. The names of a request stand in its source text as the texts that they are accepted with. -/
theorem identifier_tokens (l : Language) :
    (∀ name text, l.dialect.identifier name = .ok text → name.toList.getLast? ≠ some '\n' →
      Token l name text ∧ Unbroken text ∧ text ∉ l.keywords) ∧
    (∀ stem text, l.dialect.identifier (stem ++ "\n") = .ok text ↔
      text = stem ++ "\n" ∧ IsRun l.isPart stem.toList) ∧
    ∀ r text, l.dialect.source r = .ok text → ∃ ls className package ds, text = joinLines ls ∧
      collect l.dialect.identifier (r.constants.map (·.name)) = .ok (ds.map (·.name)) ∧
      SourceLines l r ds ls className package := by
  refine ⟨?_, fun stem text => identifier_break_iff, ?_⟩
  · intro name text h hend
    have token := token_of_identifier h hend
    exact ⟨token, token.unbroken, token.not_mem_keywords⟩
  · intro r text h
    obtain ⟨ds, hds, h⟩ := bind_eq_ok_iff.mp h
    obtain ⟨ls, className, package, htext, hlines⟩ := lines_of_assemble h
    exact ⟨ls, className, package, ds, htext, Dialect.names_of_emitAll hds, hlines⟩

theorem identifier_tokens_keyword :
    kotlin.dialect.identifier "fun" = .ok "\x60fun\x60" ∧
    Token kotlin "fun" "\x60fun\x60" ∧ "\x60fun\x60" ∉ Kotlin.keywords ∧
    java.dialect.identifier "fun\n" = .ok "fun\n" := by
  have hquoted : kotlin.dialect.identifier "fun" = .ok "\x60fun\x60" := rfl
  have hrun : IsRun java.isPart "fun".toList := by
    refine ⟨by decide, List.all_eq_true.mp (by decide), ?_⟩
    rintro c ⟨⟩
    rfl
  obtain ⟨htoken, -⟩ := identifier_tokens kotlin
  obtain ⟨-, hbreak, -⟩ := identifier_tokens java
  obtain ⟨token, -, hfree⟩ := htoken "fun" "\x60fun\x60" hquoted (by decide)
  exact ⟨hquoted, token, hfree, (hbreak "fun" "fun\n").mpr ⟨rfl, hrun⟩⟩

/-- The line feed hides the keyword in front of it from the check. -/
theorem identifier_hides_keyword :
    kotlin.dialect.identifier "object\n" = .ok "object\n" ∧
    ¬ Token kotlin "object\n" "object\n" ∧
    java.dialect.identifier "class\n" = .ok "class\n" ∧
    ¬ Token java "class\n" "class\n" ∧
    kotlin.dialect.source { Request.ofConstants (.parse "out") [] with className := "object\n" } =
      .ok "internal object object\n\n" := by
  refine ⟨rfl, fun token => ?_, rfl, fun token => ?_, rfl⟩
  · exact token.unbroken.1 (by decide)
  · exact token.unbroken.1 (by decide)

end Language

end BuildConstants
