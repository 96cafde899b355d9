import BuildConstants.Proofs.Emission
import BuildConstants.Proofs.ReadingFaults
import BuildConstants.Proofs.Runs
import BuildConstants.Proofs.TemplateReading

/-!
# How a run ends

A run that is carried out ends well or with a message, unless the document reader fails in a way of
its own or an integer beyond all doubles is declared as a floating number.
-/

namespace BuildConstants

open FileTree Outcome

namespace Fault

/-- A message is prepared for the fault. -/
def IsExpected (e : Fault) : Prop :=
  e.isUnexpected = false

theorem IsConfig.isExpected {e : Fault} (h : e.IsConfig) : e.IsExpected := by
  obtain ⟨place, problem, rfl⟩ := h
  rfl

end Fault

section Sources

open Fault

theorem failsOnly_emitAll (d : Dialect) (classes : ClassRegistry) (cs : List Constant) :
    FailsOnly IsExpected (d.emitAll classes cs) := by
  induction cs with
  | nil => exact failsOnly_ok _
  | cons c rest ih =>
    refine FailsOnly.bind ?_ fun _ _ => ih.bind fun _ _ => failsOnly_ok _
    unfold Dialect.emit
    split
    · exact failsOnly_ok _
    · exact failsOnly_error rfl

/-- The type of every declaration comes from a resolved type. -/
theorem exists_resolve_of_emitAll {d : Dialect} {classes : ClassRegistry} {cs : List Constant}
    {ds : List Declaration} (h : d.emitAll classes cs = .ok ds) :
    ∀ x ∈ ds, ∃ (c : Constant) (t : ResolvedType),
      c.type.resolve classes = .ok t ∧ x.type = c.initial.adapt t := by
  induction cs generalizing ds with
  | nil =>
    obtain rfl := Except.ok.inj h
    nofun
  | cons c rest ih =>
    obtain ⟨x, hx, h⟩ := bind_eq_ok_iff.mp h
    obtain ⟨others, hothers, h⟩ := bind_eq_ok_iff.mp h
    obtain rfl := Except.ok.inj h
    obtain ⟨name, t, text, -, ht, -, rfl⟩ := Dialect.emit_eq_ok_iff.mp hx
    exact List.forall_mem_cons.mpr ⟨⟨c, t, ht, rfl⟩, ih hothers⟩

namespace Kotlin

theorem failsOnly_identifier (name : String) : FailsOnly IsExpected (identifier name) := by
  unfold identifier
  split
  · exact failsOnly_ok _
  · split
    · exact failsOnly_error rfl
    · exact failsOnly_ok _

theorem failsOnly_packageLines (r : Request) : FailsOnly IsExpected (packageLines r) := by
  unfold packageLines
  split
  · exact failsOnly_ok _
  · exact (failsOnly_collect fun _ _ => failsOnly_identifier _).bind fun _ _ => failsOnly_ok _

theorem failsOnly_declare (v : Visibility) {d : Declaration} (h : HasName d.type) :
    FailsOnly IsExpected (declare v d) := by
  obtain ⟨name, hname⟩ := h
  rw [declare, hname]
  exact failsOnly_ok _

theorem failsOnly_assemble (r : Request) {ds : List Declaration}
    (h : ∀ d ∈ ds, HasName d.type) : FailsOnly IsExpected (assemble r ds) := by
  refine (failsOnly_identifier _).bind fun _ _ => (failsOnly_packageLines r).bind fun _ _ =>
    (failsOnly_collect fun d hd => failsOnly_declare r.visibility (h d hd)).bind fun _ _ => ?_
  split <;> exact failsOnly_ok _

end Kotlin

namespace Java

theorem failsOnly_identifier (name : String) : FailsOnly IsExpected (identifier name) := by
  unfold identifier
  split
  · exact failsOnly_error rfl
  · split
    · exact failsOnly_ok _
    · exact failsOnly_error rfl

theorem failsOnly_packageLines (r : Request) : FailsOnly IsExpected (packageLines r) := by
  unfold packageLines
  split
  · exact failsOnly_ok _
  · exact (failsOnly_collect fun _ _ => failsOnly_identifier _).bind fun _ _ => failsOnly_ok _

theorem failsOnly_declare (v : Visibility) {d : Declaration} (h : hasName d.type = true) :
    FailsOnly IsExpected (declare v d) := by
  obtain ⟨name, hname, -⟩ := typeName_of_hasName false d.type h
  rw [declare, hname]
  exact failsOnly_ok _

theorem failsOnly_assemble (r : Request) {ds : List Declaration}
    (h : ∀ d ∈ ds, hasName d.type = true) : FailsOnly IsExpected (assemble r ds) :=
  (failsOnly_identifier _).bind fun _ _ => (failsOnly_packageLines r).bind fun _ _ =>
    (failsOnly_collect fun d hd => failsOnly_declare r.visibility (h d hd)).bind fun _ _ =>
      failsOnly_ok _

end Java

theorem Kotlin.hasName_adapt {c : Constant} {classes : ClassRegistry} {t : ResolvedType}
    (h : c.type.resolve classes = .ok t) : HasName (c.initial.adapt t) := by
  have hname := (kept_hasName classes).resolve c.type t h
  rw [Initial.adapt]
  split
  · exact hname.withNullable true
  · exact hname

theorem Java.hasName_adapt {c : Constant} {classes : ClassRegistry} {t : ResolvedType}
    (h : c.type.resolve classes = .ok t) : hasName (c.initial.adapt t) = true := by
  have hname := c.type.hasName_of_resolve t h
  rw [Initial.adapt]
  split
  · exact hasName_withNullable hname true
  · exact hname

/-- A source text fails only with faults that have a message: of a constant or of a name. -/
theorem Request.failsOnly_source (r : Request) : FailsOnly IsExpected r.source := by
  refine (failsOnly_emitAll _ _ _).bind fun ds hds => ?_
  have hresolve := exists_resolve_of_emitAll hds
  cases hl : r.language with
  | kotlin =>
    refine Kotlin.failsOnly_assemble r fun d hd => ?_
    obtain ⟨c, t, ht, htype⟩ := hresolve d hd
    exact htype ▸ Kotlin.hasName_adapt ht
  | java =>
    refine Java.failsOnly_assemble r fun d hd => ?_
    obtain ⟨c, t, ht, htype⟩ := hresolve d hd
    exact htype ▸ Java.hasName_adapt ht

theorem Request.failsOnly_verifiedSource (check : SyntaxCheck) (verify : Bool) (r : Request) :
    FailsOnly IsExpected (r.verifiedSource check verify) := by
  refine r.failsOnly_source.bind fun text _ => ?_
  split
  · unfold accept
    split
    · exact failsOnly_error rfl
    · split
      · exact failsOnly_ok _
      · exact failsOnly_error rfl
  · exact failsOnly_ok _

theorem isExpected_of_writeThrough {t t' : FileTree} {p temporary : Path} {content : String}
    {e : Fault} (h : t.writeThrough p temporary content = (t', some e)) : e.IsExpected := by
  unfold writeThrough at h
  split at h
  · cases h
    rfl
  · split at h
    · cases h
      rfl
    · split at h
      · cases h
      · cases h
        rfl

theorem isExpected_of_unusable? {p : Path} {e : Fault} (h : unusable? p = some e) :
    e.IsExpected := by
  obtain ⟨_, _, _, rfl⟩ | rfl := fault_of_unusable? h <;> rfl

theorem isExpected_of_write {t t' : FileTree} {p : Path} {content : String} {e : Fault}
    (h : t.write p content = (t', some e)) : e.IsExpected := by
  unfold FileTree.write at h
  split at h
  · cases h
    rfl
  · split at h
    · rename_i cause hcause
      cases h
      exact isExpected_of_unusable? hcause
    · split at h
      · rename_i cause _ hcause
        cases h
        exact isExpected_of_unusable? hcause
      · cases h
        rfl
      · exact isExpected_of_writeThrough h

theorem Request.isExpected_of_generate {r : Request} {tree tree' : FileTree} {e : Fault}
    (h : r.generate tree = (tree', .error e)) : e.IsExpected := by
  unfold generate at h
  split at h
  · rename_i hsource
    cases h
    exact r.failsOnly_source _ hsource
  · split at h
    · rename_i hwrite
      cases h
      exact isExpected_of_write hwrite
    · cases h

end Sources

section Loading

variable {ε : Type} {host : Host ε} {tree : FileTree} {p : Path} {outputDir : Option Path}
  {override : Option String} {file content : String} {raw : Datum} {failure : Failure ε}

/-- A fault with a message, and no error of the library. -/
def Failure.IsExpected : Failure ε → Prop
  | .fault e => e.IsExpected
  | .foreign _ => False

theorem Failure.failsOnly_lift {α : Type} {x : Except Fault α} (h : FailsOnly Fault.IsExpected x) :
    FailsOnly Failure.IsExpected (Failure.lift x : Except (Failure ε) α) := by
  intro failure hfailure
  obtain ⟨e, he, rfl⟩ := Failure.lift_eq_error_iff.mp hfailure
  exact h e he

/-- A constructor only finds fault with the text under its own tag. -/
theorem Scalar.problem_of_constructors {tag s : String} {construct : Constructor} {line : Nat}
    {problem : DocumentProblem} (hmem : (tag, construct) ∈ Scalar.constructors)
    (h : construct line s = .error problem) : ∃ k, problem = .kindTag (line + 1) k s := by
  obtain ⟨k, -, hk⟩ := List.mem_map.mp hmem
  obtain ⟨-, rfl⟩ := Prod.mk.inj hk
  unfold Scalar.construct at h
  split at h
  · cases h
  · cases h
    exact ⟨k, rfl⟩

theorem Request.isExpected_failureOf {e : LibraryError ε} (h : e.Documented Scalar.constructors)
    (file : String) : (Request.failureOf file e).IsExpected := by
  cases h with
  | malformed | value => rfl
  | problem hmem hproblem =>
    obtain ⟨k, rfl⟩ := Scalar.problem_of_constructors hmem hproblem
    rfl

theorem Request.failsOnly_readMapping (h : host.library.Documented) :
    FailsOnly Failure.IsExpected (Request.readMapping host.library file content) := by
  intro failure hfailure
  unfold readMapping at hfailure
  split at hfailure
  · rename_i e he
    cases hfailure
    exact isExpected_failureOf (h _ _ _ he) file
  · split at hfailure
    · cases hfailure
    · cases hfailure
      rfl

/-- The system fails to look at a path, other than by finding nothing, or to read the file there. -/
inductive Request.Unreadable (access : Access) (tree : FileTree) (p : Path) : SystemError → Prop
  | look {cause : SystemError} (husable : unusable? p = none)
      (h : (access.stat p).or (tree.lookError? p) = some cause) (hcause : cause.isAbsence = false) :
      Unreadable access tree p cause
  | read {content : String} {cause : SystemError} (husable : unusable? p = none)
      (hlook : access.stat p = none) (hcontent : tree.content? p = some content)
      (h : access.read p = some cause) : Unreadable access tree p cause

theorem Request.fault_of_readText {access : Access} {e : Fault}
    (h : Request.readText access tree p = .error e) :
    e.IsExpected ∨ ∃ cause, e = .unreadable ⟨cause, p.text, none⟩ ∧
      Request.Unreadable access tree p cause := by
  unfold readText at h
  split at h
  · cases h
    exact .inl rfl
  · rename_i hunusable
    have husable : unusable? p = none := Option.not_isSome_iff_eq_none.mp hunusable
    split at h
    · rename_i cause hlook
      cases hcause : cause.isAbsence with
      | true =>
        rw [hcause] at h
        cases h
        exact .inl rfl
      | false =>
        rw [hcause] at h
        cases h
        exact .inr ⟨cause, rfl, .look husable hlook hcause⟩
    · rename_i hlook
      split at h
      · cases h
        exact .inl rfl
      · rename_i content cause hcontent hread
        cases h
        exact .inr ⟨cause, rfl, .read husable (Option.or_eq_none_iff.mp hlook).1 hcontent hread⟩
      · cases h
        exact .inl rfl
      · cases h

theorem Request.readText_of_unreadable {access : Access} {cause : SystemError}
    (h : Request.Unreadable access tree p cause) :
    Request.readText access tree p = .error (.unreadable ⟨cause, p.text, none⟩) := by
  cases h with
  | look husable h hcause => simp [readText, husable, h, hcause]
  | read husable hlook hcontent h =>
    simp [readText, husable, hlook, lookError?_of_content? hcontent, hcontent, h]

end Loading

namespace CommandLine

variable {ε : Type} {host : Host ε} {check : SyntaxCheck} {debug verbose verify debugging : Bool}
  {r : Request} {arguments : List String} {tree : FileTree} {source : Source} {command : Command}
  {report : Report ε} {failure : Failure ε}

theorem failsOnly_reportGenerate :
    FailsOnly Failure.IsExpected (reportGenerate check verify r tree : Report ε).outcome := by
  unfold reportGenerate
  split
  · rename_i e htext
    have he : e.IsExpected := r.failsOnly_verifiedSource check verify e htext
    exact failsOnly_error he
  · split
    · rename_i e hgenerate
      have he : e.IsExpected := Request.isExpected_of_generate hgenerate
      exact failsOnly_error he
    · exact failsOnly_ok _

/-- The file that a command reads, and what overrides its language. -/
def Command.source? : Command → Option Source
  | .types => none
  | .render source | .generate source _ => some source

/-- What leaves a run: the system cannot read the request file, or a constant overflows. -/
inductive Escapes (host : Host ε) (tree : FileTree) (source : Source) : Failure ε → Prop
  | unreadable {cause : SystemError}
      (h : Request.Unreadable host.access tree source.request cause) :
      Escapes host tree source (.fault (.unreadable ⟨cause, source.request.text, none⟩))
  | overflow {content : String} {raw : Datum}
      (hcontent : Request.readText host.access tree source.request = .ok content)
      (hraw : Request.readMapping host.library source.request.text content = .ok raw)
      (h : Request.Overflows raw source.language) :
      Escapes host tree source (.fault (.number .tooLarge))

theorem escapes_of_loadWith (hlibrary : host.library.Documented) {outputDir : Option Path}
    (h : Request.loadWith host tree source.request outputDir source.language = .error failure) :
    failure.IsExpected ∨ Escapes host tree source failure := by
  rcases bind_eq_error_iff.mp h with h | ⟨content, hcontent, h⟩
  · obtain ⟨e, he, rfl⟩ := Failure.lift_eq_error_iff.mp h
    rcases Request.fault_of_readText he with hexpected | ⟨cause, rfl, hunreadable⟩
    · exact .inl hexpected
    · exact .inr (.unreadable hunreadable)
  rcases bind_eq_error_iff.mp h with h | ⟨raw, hraw, h⟩
  · exact .inl (Request.failsOnly_readMapping hlibrary failure h)
  · obtain ⟨e, he, rfl⟩ := Failure.lift_eq_error_iff.mp h
    rcases Request.fault_of_ofDatum he with hconfig | ⟨rfl, hoverflows⟩
    · exact .inl hconfig.isExpected
    · exact .inr (.overflow (Failure.lift_eq_ok_iff.mp hcontent) hraw hoverflows)

theorem loadWith_of_escapes (h : Escapes host tree source failure) (outputDir : Option Path) :
    Request.loadWith host tree source.request outputDir source.language = .error failure := by
  unfold Request.loadWith
  cases h with
  | unreadable h =>
    rw [Request.readText_of_unreadable h]
    rfl
  | overflow hcontent hraw h =>
    rw [hcontent, Failure.lift, ok_bind, hraw, ok_bind, Request.ofDatum_of_overflows h]
    rfl

theorem not_isExpected_of_escapes (h : Escapes host tree source failure) :
    ¬ failure.IsExpected := by
  cases h <;> exact Bool.noConfusion

theorem failure_of_withRequest (hlibrary : host.library.Documented) {outputDir : Option Path}
    {rest : Request → Report ε} (hrest : ∀ r, FailsOnly Failure.IsExpected (rest r).outcome)
    (h : (withRequest host source outputDir tree rest).outcome = .error failure) :
    failure.IsExpected ∨ Escapes host tree source failure := by
  cases hload : Request.loadWith host tree source.request outputDir source.language with
  | error failure' =>
    rw [withRequest_of_error hload] at h
    obtain rfl := Except.error.inj h
    exact escapes_of_loadWith hlibrary hload
  | ok r =>
    rw [withRequest_of_load hload] at h
    exact .inl (hrest r failure h)

theorem failure_of_report (hlibrary : host.library.Documented)
    (h : (command.report host tree).outcome = .error failure) : failure.IsExpected ∨
      ∃ source, command.source? = some source ∧ Escapes host tree source failure := by
  cases command with
  | types => cases h
  | render source =>
    refine (failure_of_withRequest hlibrary (fun r => ?_) h).imp_right
      fun hescapes => ⟨source, rfl, hescapes⟩
    exact Failure.failsOnly_lift (r.failsOnly_verifiedSource host.check source.verify)
  | generate source outputDir =>
    refine (failure_of_withRequest hlibrary (fun r => ?_) h).imp_right
      fun hescapes => ⟨source, rfl, hescapes⟩
    split
    · exact failsOnly_ok _
    · exact failsOnly_reportGenerate

theorem report_of_escapes (hsource : command.source? = some source)
    (h : Escapes host tree source failure) :
    (command.report host tree).outcome = .error failure := by
  cases command with
  | types => cases hsource
  | render other =>
    obtain rfl := Option.some.inj hsource
    rw [Command.report, withRequest_of_error (loadWith_of_escapes h none)]
  | generate other outputDir =>
    obtain rfl := Option.some.inj hsource
    rw [Command.report, withRequest_of_error (loadWith_of_escapes h outputDir)]

theorem ending_of_isExpected (debugging : Bool) (h : report.outcome = .error failure)
    (he : failure.IsExpected) :
    ∃ errors, (report.result debugging).ending = .finished 2 errors := by
  rw [Report.result, h]
  cases failure with
  | fault e =>
    have hmessage : e.isUnexpected = false := he
    simp only [hmessage, Bool.false_eq_true, if_false]
    exact ⟨_, rfl⟩
  | foreign e => cases he

theorem ending_of_not_isExpected (debugging : Bool) (h : report.outcome = .error failure)
    (he : ¬ failure.IsExpected) : (report.result debugging).ending = .escaped failure := by
  rw [Report.result, h]
  cases failure with
  | fault e =>
    have hmessage : e.isUnexpected = true := Bool.not_eq_false _ ▸ he
    simp only [hmessage, if_true]
  | foreign e => rfl

/-- On a library that raises no other errors than it is known to, a run that is carried out returns
0 or 2, except where the request file cannot be read or a constant overflows. -/
theorem runWith_ending (host : Host ε) (hlibrary : host.library.Documented) (debug : Bool)
    (tree : FileTree) (h : Invocation.parse arguments = .ok ⟨verbose, command⟩) :
    (∀ failure, (runWith host debug arguments tree).ending = .escaped failure ↔
      ∃ source, command.source? = some source ∧ Escapes host tree source failure) ∧
    ((∀ source failure, command.source? = some source → ¬ Escapes host tree source failure) →
      ∃ code errors, (code = 0 ∨ code = 2) ∧
        (runWith host debug arguments tree).ending = .finished code errors) := by
  rw [runWith_of_parse h]
  have hescaped : ∀ failure,
      (∃ source, command.source? = some source ∧ Escapes host tree source failure) →
      ((command.report host tree).result (debug || verbose)).ending = .escaped failure := by
    rintro failure ⟨source, hsource, hescapes⟩
    exact ending_of_not_isExpected _ (report_of_escapes hsource hescapes)
      (not_isExpected_of_escapes hescapes)
  -- what escapes is what the report fails with, so the outcome decides both parts
  cases houtcome : (command.report host tree).outcome with
  | ok output =>
    have hending : ((command.report host tree).result (debug || verbose)).ending =
        .finished 0 (Remark.lines (debug || verbose) (command.report host tree).remarks) := by
      rw [Report.result, houtcome]
    refine ⟨fun failure => ⟨fun hcontra => ?_, hescaped failure⟩,
      fun _ => ⟨0, _, .inl rfl, hending⟩⟩
    rw [hending] at hcontra
    cases hcontra
  | error failure' =>
    rcases failure_of_report hlibrary houtcome with he | ⟨source, hsource, hescapes⟩
    · obtain ⟨errors, hfinished⟩ := ending_of_isExpected (debug || verbose) houtcome he
      refine ⟨fun failure => ⟨fun hcontra => ?_, hescaped failure⟩,
        fun _ => ⟨2, errors, .inr rfl, hfinished⟩⟩
      rw [hfinished] at hcontra
      cases hcontra
    · refine ⟨fun failure => ⟨fun hending => ?_, hescaped failure⟩,
        fun hnone => absurd hescapes (hnone source failure' hsource)⟩
      rw [hescaped failure' ⟨source, hsource, hescapes⟩] at hending
      cases hending
      exact ⟨source, hsource, hescapes⟩

/-- A host on which no text is a document. -/
def brokenHost : Host Empty where
  access := .full
  library := fun _ _ => .error (.malformed "expected a document")
  check := .lenient

theorem runWith_ending_unreadable :
    Invocation.parse ["render", "r.yaml"] = .ok ⟨false, .render ⟨.parse "r.yaml", none, false⟩⟩ ∧
    brokenHost.library.Documented ∧
    ∃ code errors, (code = 0 ∨ code = 2) ∧
      (runWith brokenHost false ["render", "r.yaml"] (.ofFiles [("r.yaml", some "]")])).ending =
        .finished code errors := by
  have hparse : Invocation.parse ["render", "r.yaml"] =
      .ok ⟨false, .render ⟨.parse "r.yaml", none, false⟩⟩ := rfl
  have hlibrary : brokenHost.library.Documented := by
    rintro constructors text _ ⟨⟩
    exact .malformed _
  have hread : Request.readText brokenHost.access (.ofFiles [("r.yaml", some "]")])
      (.parse "r.yaml") = .ok "]" := rfl
  refine ⟨hparse, hlibrary, (runWith_ending brokenHost hlibrary false _ hparse).2 ?_⟩
  intro source failure hsource hescapes
  obtain rfl := Option.some.inj hsource
  cases hescapes with
  | unreadable h => cases hread.symm.trans (Request.readText_of_unreadable h)
  | overflow hcontent hraw h => cases hraw

/-- A request that declares the greatest integer of 1024 bits as a double. -/
def hugeText : String :=
  "fields:\n- \x7bname: X, type: double, value: 0x" ++ String.ofList (List.replicate 256 'f') ++
    "\x7d\n"

def hugeHost : Host Empty :=
  hostOf (.map [(.text "fields", .list [.map [(.text "name", .text "X"),
    (.text "type", .text "double"), (.text "value", .int (Int.pow 2 1024 - 1))]])])

def hugeTree : FileTree := .ofFiles [("r.yaml", some hugeText)]

theorem documented_hostOf (d : Datum) : (hostOf d).library.Documented :=
  nofun

def isOverflow : Except (Failure Empty) Request → Bool
  | .error (.fault (.number .tooLarge)) => true
  | _ => false

theorem eq_of_isOverflow {outcome : Except (Failure Empty) Request}
    (h : isOverflow outcome = true) : outcome = .error (.fault (.number .tooLarge)) := by
  unfold isOverflow at h
  split at h
  · rfl
  · cases h

theorem runWith_escapes_huge :
    hugeHost.library.Documented ∧
    Invocation.parse ["render", "r.yaml"] = .ok ⟨false, .render ⟨.parse "r.yaml", none, false⟩⟩ ∧
    (runWith hugeHost false ["render", "r.yaml"] hugeTree).ending =
      .escaped (.fault (.number .tooLarge)) ∧
    ∀ code errors,
      (runWith hugeHost false ["render", "r.yaml"] hugeTree).ending ≠ .finished code errors := by
  have hparse : Invocation.parse ["render", "r.yaml"] =
      .ok ⟨false, .render ⟨.parse "r.yaml", none, false⟩⟩ := rfl
  have hload : Request.loadWith hugeHost hugeTree (.parse "r.yaml") none none =
      .error (.fault (.number .tooLarge)) := eq_of_isOverflow (by decide +kernel)
  have hending : (runWith hugeHost false ["render", "r.yaml"] hugeTree).ending =
      .escaped (.fault (.number .tooLarge)) := by
    rw [runWith_of_parse hparse]
    refine ending_of_not_isExpected _ ?_ Bool.noConfusion
    rw [Command.report, withRequest_of_error hload]
  refine ⟨documented_hostOf _, hparse, hending, fun code errors hfinished => ?_⟩
  rw [hending] at hfinished
  cases hfinished

end CommandLine

end BuildConstants
