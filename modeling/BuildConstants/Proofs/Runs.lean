import BuildConstants.CommandLine.Program
import BuildConstants.Proofs.FileWriting
import BuildConstants.Proofs.Loading
import BuildConstants.Proofs.OutputPath

/-!
# What a run leaves

Only a run that generates a source file touches the tree, and only when the source text is there.
What it then writes is what rendering prints, and a second run finds nothing to change.
-/

namespace BuildConstants

open FileTree Outcome

namespace Request

theorem accept_eq_ok_iff {check : SyntaxCheck} {r : Request} {text text' : String} :
    r.accept check text = .ok text' ↔
      unencodable? 0 text.toList = none ∧ check r.language text = [] ∧ text' = text := by
  unfold accept
  cases unencodable? 0 text.toList with
  | some run => simp
  | none =>
    cases check r.language text with
    | nil => simp [eq_comm]
    | cons problem problems => simp

/-- A verified text is the source text, which the parser takes if it is asked. -/
theorem verifiedSource_eq_ok_iff {check : SyntaxCheck} {verify : Bool} {r : Request}
    {text : String} : r.verifiedSource check verify = .ok text ↔
      r.source = .ok text ∧
      (verify = true → unencodable? 0 text.toList = none ∧ check r.language text = []) := by
  rw [verifiedSource, bind_eq_ok_iff]
  cases verify with
  | false => simp
  | true =>
    simp only [if_pos, accept_eq_ok_iff]
    constructor
    · rintro ⟨_, hsource, hcode, hcheck, rfl⟩
      exact ⟨hsource, fun _ => ⟨hcode, hcheck⟩⟩
    · rintro ⟨hsource, hverified⟩
      obtain ⟨hcode, hcheck⟩ := hverified trivial
      exact ⟨text, hsource, hcode, hcheck, rfl⟩

/-- What stands for the file of a request while it is written. -/
theorem exists_sibling {r : Request} {text : String} (h : r.source = .ok text) :
    ∃ temporary, Sibling r.outputPath temporary (r.language.fileName r) := by
  have hplaced := Language.placed_of_source h
  have hlast : r.outputPath.name? = some (r.language.fileName r) := by
    rw [outputPath, Language.outputPath_eq _ hplaced]
    exact List.getLast?_concat
  obtain ⟨temporary, htemporary⟩ : ∃ temporary,
      r.outputPath.withSuffix? temporarySuffix = some temporary := by
    rw [Path.withSuffix?, hlast]
    exact ⟨_, rfl⟩
  exact ⟨temporary, hlast, (r.language.isEntry_fileName hplaced).ne_above, htemporary⟩

end Request

namespace CommandLine

variable {ε : Type}

section Reports

variable {host : Host ε} {check : SyntaxCheck} {verify debug verbose debugging : Bool} {r : Request}
  {tree tree' : FileTree} {source : Source} {outputDir : Option Path} {report : Report ε}
  {command : Command} {arguments : List String} {text errors : String}

theorem tree_result : (report.result debugging).tree = report.tree := by
  rw [Report.result]
  split
  · rfl
  · rfl
  · split <;> rfl

theorem outcome_of_finished (h : (report.result debugging).ending = .finished 0 errors) :
    ∃ output, report.outcome = .ok output := by
  rw [Report.result] at h
  split at h
  · rename_i output houtput
    exact ⟨output, houtput⟩
  · cases h
  · split at h <;> simp at h

theorem runWith_of_parse (h : Invocation.parse arguments = .ok ⟨verbose, command⟩) :
    runWith host debug arguments tree =
      (command.report host tree).result (debug || verbose) := by
  rw [runWith, h]

theorem withRequest_of_load {rest : Request → Report ε}
    (h : Request.loadWith host tree source.request outputDir source.language = .ok r) :
    withRequest host source outputDir tree rest =
      { rest r with remarks := .loaded r source.request :: (rest r).remarks } := by
  rw [withRequest, h]

theorem withRequest_of_error {rest : Request → Report ε} {failure : Failure ε}
    (h : Request.loadWith host tree source.request outputDir source.language = .error failure) :
    withRequest host source outputDir tree rest = ⟨[], .error failure, tree⟩ := by
  rw [withRequest, h]

theorem tree_report_render : (Command.report host tree (.render source)).tree = tree := by
  rw [Command.report]
  cases h : Request.loadWith host tree source.request none source.language with
  | error e => rw [withRequest_of_error h]
  | ok r => rw [withRequest_of_load h, reportRender]

theorem write_of_reportGenerate {output : String}
    (h : (reportGenerate check verify r tree : Report ε).outcome = .ok output) :
    ∃ text, r.verifiedSource check verify = .ok text ∧
      tree.write r.outputPath text =
        ((reportGenerate check verify r tree : Report ε).tree, none) := by
  unfold reportGenerate at h ⊢
  cases htext : r.verifiedSource check verify with
  | error e => simp [htext] at h
  | ok text =>
    have hsource := (Request.verifiedSource_eq_ok_iff.mp htext).1
    simp only [htext, Request.generate, hsource] at h ⊢
    refine ⟨text, rfl, ?_⟩
    rcases hwrite : tree.write r.outputPath text with ⟨tree', _ | e⟩
    · rfl
    · simp [hwrite] at h

theorem reportGenerate_of_write (htext : r.verifiedSource check verify = .ok text)
    (hwrite : tree.write r.outputPath text = (tree', none)) :
    (reportGenerate check verify r tree : Report ε) =
      ⟨sourceRemarks r ++ [.wrote text r.outputPath, .generated r r.outputPath],
        .ok (r.outputPath.text ++ "\n"), tree'⟩ := by
  have hsource := (Request.verifiedSource_eq_ok_iff.mp htext).1
  simp only [reportGenerate, htext, Request.generate, hsource, hwrite]

theorem report_generate_of_load
    (h : Request.loadWith host tree source.request outputDir source.language = .ok r) :
    Command.report host tree (.generate source outputDir) =
      let rest := if r.isEmpty then ⟨[.skipped source.request], .ok "", tree⟩
        else reportGenerate host.check source.verify r tree
      { rest with remarks := .loaded r source.request :: rest.remarks } := by
  rw [Command.report, withRequest_of_load h]

theorem tree_report_generate (h : ∀ r text,
      Request.loadWith host tree source.request outputDir source.language = .ok r →
        r.isEmpty = false → r.verifiedSource host.check source.verify ≠ .ok text) :
    (Command.report host tree (.generate source outputDir)).tree = tree := by
  cases hload : Request.loadWith host tree source.request outputDir source.language with
  | error e => rw [Command.report, withRequest_of_error hload]
  | ok r =>
    rw [report_generate_of_load hload]
    cases hempty : r.isEmpty with
    | true => rfl
    | false =>
      simp only [Bool.false_eq_true, if_false, reportGenerate]
      split
      · rfl
      · rename_i text htext
        exact absurd htext (h r text hload hempty)

theorem exists_write_of_report
    (hload : Request.loadWith host tree source.request outputDir source.language = .ok r)
    (hempty : r.isEmpty = false) {output : String}
    (h : (Command.report host tree (.generate source outputDir)).outcome = .ok output) :
    ∃ text, r.verifiedSource host.check source.verify = .ok text ∧
      tree.write r.outputPath text =
        ((Command.report host tree (.generate source outputDir)).tree, none) := by
  rw [report_generate_of_load hload] at h ⊢
  simp only [hempty, Bool.false_eq_true, if_false] at h ⊢
  exact write_of_reportGenerate h

end Reports

/-- Rendering the request of a source prints a text and leaves the tree alone, whatever else stands
on the command line. A parser may only refuse the text where the source did not ask it. -/
def RendersAs (host : Host ε) (tree : FileTree) (source : Source) (r : Request)
    (text : String) : Prop :=
  ∀ debug verbose arguments rendered,
    Invocation.parse arguments = .ok ⟨verbose, .render rendered⟩ →
    rendered.request = source.request →
    (rendered.language = source.language ∨ ∃ r',
      Request.loadWith host tree source.request none rendered.language = .ok r' ∧
      r'.language = r.language) →
    (rendered.verify = true → source.verify = true ∨ host.check r.language text = []) →
    ∃ errors, runWith host debug arguments tree = ⟨.finished 0 errors, text, tree⟩

section Runs

variable {host : Host ε} {debug verbose : Bool} {arguments : List String}
  {tree tree' : FileTree} {source : Source} {outputDir : Option Path} {r : Request}
  {text output errors : String}

theorem rendersAs_of_source
    (hload : Request.loadWith host tree source.request outputDir source.language = .ok r)
    (htext : r.verifiedSource host.check source.verify = .ok text)
    (hcode : unencodable? 0 text.toList = none) : RendersAs host tree source r text := by
  obtain ⟨hsource, hverified⟩ := Request.verifiedSource_eq_ok_iff.mp htext
  intro debug verbose arguments rendered hparse hrequest hsame hverify
  obtain ⟨r', hload', hlanguage⟩ : ∃ r',
      Request.loadWith host tree source.request none rendered.language = .ok r' ∧
      r'.language = r.language := by
    rcases hsame with hsame | hsame
    · rw [hsame]
      exact Request.exists_loadWith hload none
    · exact hsame
  have hsource' : r'.source = .ok text := by
    rw [Request.source_eq_of_loadWith hload hload' hlanguage, hsource]
  have htext' : r'.verifiedSource host.check rendered.verify = .ok text := by
    refine Request.verifiedSource_eq_ok_iff.mpr ⟨hsource', fun hasked => ⟨hcode, ?_⟩⟩
    rw [hlanguage]
    rcases hverify hasked with hasked | htaken
    · exact (hverified hasked).2
    · exact htaken
  rw [← hrequest] at hload'
  rw [runWith_of_parse hparse, Command.report, withRequest_of_load hload', reportRender, htext']
  exact ⟨_, rfl⟩

theorem tree_runWith {command : Command}
    (h : Invocation.parse arguments = .ok ⟨verbose, command⟩) :
    (runWith host debug arguments tree).tree = (command.report host tree).tree := by
  rw [runWith_of_parse h, tree_result]

/-- A run that finishes well has written its source text. -/
theorem exists_write_of_finished
    (h : Invocation.parse arguments = .ok ⟨verbose, .generate source outputDir⟩)
    (hload : Request.loadWith host tree source.request outputDir source.language = .ok r)
    (hempty : r.isEmpty = false)
    (hrun : runWith host debug arguments tree = ⟨.finished 0 errors, output, tree'⟩) :
    ∃ text temporary, r.verifiedSource host.check source.verify = .ok text ∧
      tree.write r.outputPath text = (tree', none) ∧
      Sibling r.outputPath temporary (r.language.fileName r) := by
  obtain ⟨_, houtcome⟩ := outcome_of_finished
    (congrArg RunResult.ending ((runWith_of_parse h).symm.trans hrun))
  obtain ⟨text, htext, hwrite⟩ := exists_write_of_report hload hempty houtcome
  obtain ⟨temporary, hsibling⟩ :=
    Request.exists_sibling (Request.verifiedSource_eq_ok_iff.mp htext).1
  rw [← tree_runWith h, hrun] at hwrite
  exact ⟨text, temporary, htext, hwrite, hsibling⟩

/-- A second run finds everything as the first one left it. -/
theorem runWith_again (h : Invocation.parse arguments = .ok ⟨verbose, .generate source outputDir⟩)
    (hload : Request.loadWith host tree source.request outputDir source.language = .ok r)
    (hempty : r.isEmpty = false) (htext : r.verifiedSource host.check source.verify = .ok text)
    (hwrite : tree.write r.outputPath text = (tree', none))
    (hagain : tree'.write r.outputPath text = (tree', none))
    (hkept : tree'.content? source.request = tree.content? source.request) :
    runWith host debug arguments tree' = runWith host debug arguments tree := by
  have hload' := Request.loadWith_of_content?_eq hload hkept
  simp only [runWith_of_parse h, report_generate_of_load hload, report_generate_of_load hload',
    hempty, Bool.false_eq_true, if_false, reportGenerate_of_write htext hwrite,
    reportGenerate_of_write htext hagain]

/-- A run touches only its own output, and that is what rendering prints. -/
theorem runWith_touches_output (host : Host ε) (debug : Bool) (arguments : List String)
    (tree : FileTree) {verbose : Bool} {command : Command}
    (h : Invocation.parse arguments = .ok ⟨verbose, command⟩) :
    (∀ source, command = .render source → (runWith host debug arguments tree).tree = tree) ∧
    ∀ source outputDir, command = .generate source outputDir →
      (∀ e, Request.loadWith host tree source.request outputDir source.language = .error e →
        (runWith host debug arguments tree).tree = tree) ∧
      ∀ r, Request.loadWith host tree source.request outputDir source.language = .ok r →
        (r.isEmpty = true → (runWith host debug arguments tree).tree = tree) ∧
        (∀ e, r.source = .error e → (runWith host debug arguments tree).tree = tree) ∧
        (∀ e, r.verifiedSource host.check source.verify = .error e →
          (runWith host debug arguments tree).tree = tree) ∧
        ∀ errors output tree', r.isEmpty = false →
          runWith host debug arguments tree = ⟨.finished 0 errors, output, tree'⟩ →
          ∃ text temporary, r.outputPath.withSuffix? temporarySuffix = some temporary ∧
            Rewritten tree tree' r.outputPath temporary text ∧
            RendersAs host tree source r text ∧
            (tree'.target source.request ≠ tree'.target r.outputPath →
              tree'.target source.request ≠ tree'.target temporary →
              runWith host debug arguments tree' = ⟨.finished 0 errors, output, tree'⟩) := by
  refine ⟨?_, ?_⟩
  · rintro source rfl
    rw [tree_runWith h, tree_report_render]
  · rintro source outputDir rfl
    refine ⟨fun e he => ?_, fun r hload => ?_⟩
    · rw [tree_runWith h, tree_report_generate]
      intro r text hload
      rw [he] at hload
      cases hload
    -- whatever stops the run before the source text stops it before the tree is touched
    have hunchanged : (∀ text, r.isEmpty = false →
        r.verifiedSource host.check source.verify ≠ .ok text) →
        (runWith host debug arguments tree).tree = tree := by
      intro hnone
      rw [tree_runWith h, tree_report_generate]
      intro r' text hload'
      obtain rfl := Except.ok.inj (hload.symm.trans hload')
      exact hnone text
    refine ⟨fun hempty => hunchanged fun text hsome => ?_, fun e he => hunchanged fun text _ => ?_,
      fun e he => hunchanged fun text _ => ?_, ?_⟩
    · rw [hempty] at hsome
      cases hsome
    · intro htext
      rw [(Request.verifiedSource_eq_ok_iff.mp htext).1] at he
      cases he
    · rw [he]
      nofun
    intro errors output tree' hempty hrun
    obtain ⟨text, temporary, htext, hwrite, hsibling⟩ :=
      exists_write_of_finished h hload hempty hrun
    have hrewritten := hsibling.rewritten_of_write hwrite
    have hcode : unencodable? 0 text.toList = none := (hsibling.write_eq_ok_iff.mp hwrite).2.2.2.1
    refine ⟨text, temporary, hsibling.suffixed, hrewritten,
      rendersAs_of_source hload htext hcode, fun hfile htemporary => ?_⟩
    obtain ⟨content, -, hfound, -⟩ := Request.loadWith_eq_ok_iff.mp hload
    have hcontent := (Request.readText_eq_ok_iff.mp hfound).2.2.1
    -- the second run reads the same request, since its file is kept
    have hkept := hrewritten.content?_eq hcontent hfile htemporary
    rw [← hrun]
    exact runWith_again h hload hempty htext hwrite (hsibling.write_again hwrite)
      (hkept.trans hcontent.symm)

end Runs

/-- A host whose library finds one document in every text. -/
def hostOf (d : Datum) : Host Empty where
  access := .full
  library := fun _ _ => .ok d
  check := .lenient

def staleText : String := "fields: [\x7bname: A, type: int, value: 1\x7d]\n"

def staleHost : Host Empty :=
  hostOf (.map [(.text "fields", .list [.map [
    (.text "name", .text "A"), (.text "type", .text "int"), (.text "value", .int 1)]])])

/-- A tree in which an earlier run was cut short. -/
def staleTree : FileTree :=
  .ofFiles [("r.yaml", some staleText), ("out/BuildConfig.kt.tmp", some "half")]

theorem runWith_touches_output_stale : ∃ errors tree',
    runWith staleHost false ["generate", "r.yaml", "-o", "out"] staleTree =
      ⟨.finished 0 errors, "out/BuildConfig.kt\n", tree'⟩ ∧
    tree'.content? (.parse "out/BuildConfig.kt") =
      some (runWith staleHost false ["render", "r.yaml"] staleTree).output ∧
    tree'.content? (.parse "out/BuildConfig.kt.tmp") = none ∧
    runWith staleHost false ["generate", "r.yaml", "-o", "out"] tree' =
      ⟨.finished 0 errors, "out/BuildConfig.kt\n", tree'⟩ := by
  have hparse : Invocation.parse ["generate", "r.yaml", "-o", "out"] =
      .ok ⟨false, .generate ⟨.parse "r.yaml", none, false⟩ (some (.parse "out"))⟩ := rfl
  have hrender : Invocation.parse ["render", "r.yaml"] =
      .ok ⟨false, .render ⟨.parse "r.yaml", none, false⟩⟩ := rfl
  obtain ⟨r, hload, hempty, hpath⟩ : ∃ r,
      Request.loadWith staleHost staleTree (.parse "r.yaml") (some (.parse "out")) none = .ok r ∧
      r.isEmpty = false ∧ r.outputPath = .parse "out/BuildConfig.kt" := by
    have hread : (Request.loadWith staleHost staleTree (.parse "r.yaml") (some (.parse "out"))
        none).toOption.map (fun r => (r.isEmpty, r.outputPath)) =
        some (false, .parse "out/BuildConfig.kt") := by
      decide +kernel
    cases hload : Request.loadWith staleHost staleTree (.parse "r.yaml") (some (.parse "out"))
        none with
    | error failure => simp [hload, Except.toOption] at hread
    | ok r =>
      rw [hload] at hread
      obtain ⟨hempty, hpath⟩ := Prod.mk.inj (Option.some.inj hread)
      exact ⟨r, rfl, hempty, hpath⟩
  have hfacts : (fun result : RunResult (Failure Empty) => (match result.ending with
        | .finished 0 _ => true
        | _ => false,
        result.output, result.tree.content? (.parse "r.yaml"),
        result.tree.content? (.parse "out/BuildConfig.kt.tmp"),
        result.tree.content? (.parse "out/BuildConfig.kt")))
      (runWith staleHost false ["generate", "r.yaml", "-o", "out"] staleTree) =
      (true, "out/BuildConfig.kt\n", some staleText, none,
        some "internal object BuildConfig \x7b\n  internal const val A: Int = 1\n\x7d\n") := by
    decide +kernel
  rcases hrun : runWith staleHost false ["generate", "r.yaml", "-o", "out"] staleTree with
    ⟨ending, output, tree'⟩
  rw [hrun] at hfacts
  simp only [Prod.mk.injEq] at hfacts
  obtain ⟨hending, rfl, hfile, hgone, hwritten⟩ := hfacts
  split at hending
  · rename_i errors
    obtain ⟨text, temporary, hsuffix, hrewritten, hrendered, hagain⟩ :=
      (((runWith_touches_output staleHost false _ staleTree hparse).2 _ _ rfl).2 r hload).2.2.2
        errors _ tree' hempty hrun
    rw [hpath] at hsuffix hrewritten hagain
    obtain ⟨errors', hprinted⟩ := hrendered false false _ _ hrender rfl (.inl rfl) nofun
    obtain rfl : .parse "out/BuildConfig.kt.tmp" = temporary :=
      Option.some.inj (Eq.trans (by decide) hsuffix)
    have hother : ∀ p, tree'.content? (.parse "r.yaml") ≠ tree'.content? p →
        tree'.target (.parse "r.yaml") ≠ tree'.target p := by
      intro p hcontent htarget
      exact hcontent (by rw [content?, content?, htarget])
    refine ⟨errors, tree', rfl, ?_, hgone, hagain (hother _ ?_) (hother _ ?_)⟩
    · rw [hprinted]
      exact hrewritten.holds
    · rw [hfile, hwritten]
      decide
    · rw [hfile, hgone]
      decide
  · cases hending

end CommandLine

end BuildConstants
