import Mathlib.Data.List.Induction
import BuildConstants.Dialect.Catalog

/-!
# Histories of a catalog

A catalog keeps what it loads under the language that the loaded dialect names, and looks there
under the language that is asked for. Behind any registrations and look-ups it answers like a table
without a cache, in which a look-up moves the dialect that it finds to the language that this dialect
names. So every language is answered with its latest registration, and no call changes what another
language is answered, exactly if all dialects are registered for the language that they name.
-/

namespace BuildConstants

namespace Catalog

variable {σ α : Type}

/-- What can be asked of a catalog. -/
inductive Call (σ : Type)
  | register (l : Language) (source : σ)
  | lookUp (l : Language)

namespace Call

def language : Call σ → Language
  | register l _ => l
  | lookUp l => l

def source? (l : Language) : Call σ → Option σ
  | register m source => if m = l then some source else none
  | lookUp _ => none

end Call

/-- The source that the latest registration of a language names. -/
def latest? (calls : List (Call σ)) (l : Language) : Option σ :=
  (calls.filterMap (·.source? l)).getLast?

/-- All registrations are among those of a relation. -/
def RegistersOnly (R : Language → σ → Prop) (calls : List (Call σ)) : Prop :=
  ∀ l source, Call.register l source ∈ calls → R l source

section Histories

variable (load : σ → α) (languageOf : α → Language)

def step (c : Catalog σ α) : Call σ → Catalog σ α
  | .register l source => c.register l source
  | .lookUp l => (c.get load languageOf l).2

def run (calls : List (Call σ)) : Catalog σ α :=
  calls.foldl (step load languageOf) empty

/-- What a look-up finds. -/
def answer (c : Catalog σ α) (l : Language) : Option α :=
  (c.get load languageOf l).1

/-- The answers behind a call. A registration is answered at once with its dialect. A look-up makes
the dialect that it finds the answer of the language that this dialect names. -/
def answersAfter (answers : Language → Option α) : Call σ → Language → Option α
  | .register l source, m => if m = l then some (load source) else answers m
  | .lookUp l, m =>
    match answers l with
    | some a => if m = languageOf a then some a else answers m
    | none => answers m

/-- A look-up behind the calls finds nothing but the dialect of the latest registration. -/
def Coherent (calls : List (Call σ)) : Prop :=
  ∀ l a, answer load languageOf (run load languageOf calls) l = some a →
    (latest? calls l).map load = some a

/-- One more call changes nothing for the other languages. -/
def Isolated (calls : List (Call σ)) (call : Call σ) : Prop :=
  ∀ l, l ≠ call.language →
    answer load languageOf (run load languageOf (calls ++ [call])) l =
      answer load languageOf (run load languageOf calls) l

/-- Dialects are registered for no language but the one that they name. -/
def OwnNames (R : Language → σ → Prop) : Prop :=
  ∀ l source, R l source → languageOf (load source) = l

/-- Everything that was loaded stands under the language that it names. -/
def Labelled (c : Catalog σ α) : Prop :=
  ∀ l a, find? c.loaded l = some a → languageOf a = l

end Histories

theorem latest?_append_register (calls : List (Call σ)) (m l : Language) (source : σ) :
    latest? (calls ++ [.register m source]) l = if m = l then some source else latest? calls l := by
  by_cases h : m = l
  · simp [latest?, Call.source?, h]
  · simp [latest?, Call.source?, h]

theorem latest?_append_lookUp (calls : List (Call σ)) (m l : Language) :
    latest? (calls ++ [.lookUp m]) l = latest? calls l := by
  simp [latest?, Call.source?]

theorem mem_of_latest? {calls : List (Call σ)} {l : Language} {source : σ}
    (h : latest? calls l = some source) : Call.register l source ∈ calls := by
  obtain ⟨call, hcall, hsource⟩ := List.mem_filterMap.mp (List.mem_of_getLast? h)
  cases call with
  | lookUp m => cases hsource
  | register m s =>
    rw [Call.source?] at hsource
    split at hsource
    · rename_i hm
      obtain rfl := hm
      obtain rfl := Option.some.inj hsource
      exact hcall
    · cases hsource

section Histories

variable {load : σ → α} {languageOf : α → Language} {c : Catalog σ α}

theorem run_append_singleton (calls : List (Call σ)) (call : Call σ) :
    run load languageOf (calls ++ [call]) =
      step load languageOf (run load languageOf calls) call := by
  rw [run, List.foldl_append]
  rfl

theorem answer_eq (c : Catalog σ α) (l : Language) :
    answer load languageOf c l = (find? c.loaded l).or ((find? c.sources l).map load) := by
  rw [answer, get]
  cases find? c.loaded l with
  | some a => rfl
  | none => cases find? c.sources l <;> rfl

/-- A look-up leaves the catalog as it is, or loads what is registered and was not loaded. -/
theorem get_cases (load : σ → α) (languageOf : α → Language) (c : Catalog σ α) (l : Language) :
    (c.get load languageOf l).2 = c ∧ answer load languageOf c l = find? c.loaded l ∨
    ∃ source, find? c.loaded l = none ∧ answer load languageOf c l = some (load source) ∧
      (c.get load languageOf l).2 =
        ⟨c.sources, put c.loaded (languageOf (load source)) (load source)⟩ := by
  rw [answer, get]
  cases find? c.loaded l with
  | some a => exact .inl ⟨rfl, rfl⟩
  | none =>
    cases find? c.sources l with
    | none => exact .inl ⟨rfl, rfl⟩
    | some source => exact .inr ⟨source, rfl, rfl, rfl⟩

theorem Labelled.step (h : Labelled languageOf c) (call : Call σ) :
    Labelled languageOf (step load languageOf c call) := by
  intro m a hm
  cases call with
  | register l source =>
    have hm : find? (drop c.loaded l) m = some a := hm
    by_cases hl : m = l
    · rw [hl, find?_drop_self] at hm
      cases hm
    · rw [find?_drop_of_ne _ hl] at hm
      exact h m a hm
  | lookUp l =>
    have hm : find? (c.get load languageOf l).2.loaded m = some a := hm
    obtain ⟨hsame, -⟩ | ⟨source, -, -, hloaded⟩ := get_cases load languageOf c l
    · rw [hsame] at hm
      exact h m a hm
    · rw [hloaded] at hm
      by_cases hl : m = languageOf (load source)
      · rw [hl, find?_put_self] at hm
        rw [hl, Option.some.inj hm]
      · rw [find?_put_of_ne _ _ hl] at hm
        exact h m a hm

theorem labelled_run (calls : List (Call σ)) : Labelled languageOf (run load languageOf calls) := by
  induction calls using List.reverseRecOn with
  | nil => nofun
  | append_singleton calls call ih =>
    rw [run_append_singleton]
    exact ih.step call

theorem answer_step (h : Labelled languageOf c) (call : Call σ) (m : Language) :
    answer load languageOf (step load languageOf c call) m =
      answersAfter load languageOf (answer load languageOf c) call m := by
  cases call with
  | register l source =>
    show answer load languageOf (c.register l source) m = if m = l then _ else _
    rw [answer_eq, answer_eq, register]
    by_cases hl : m = l
    · rw [if_pos hl, hl, find?_drop_self, find?_put_self]
      rfl
    · rw [if_neg hl, find?_drop_of_ne _ hl, find?_put_of_ne _ _ hl]
  | lookUp l =>
    show answer load languageOf (c.get load languageOf l).2 m = _
    rw [answersAfter]
    obtain ⟨hsame, hanswer⟩ | ⟨source, hnew, hanswer, hloaded⟩ := get_cases load languageOf c l
    · rw [hsame, hanswer]
      cases ha : find? c.loaded l with
      | none => rfl
      | some a =>
        -- What was kept stands under the language that it names, so that it stays where it is.
        obtain rfl := h l a ha
        show _ = if m = languageOf a then some a else _
        split
        · rename_i hm
          rw [hm, hanswer, ha]
        · rfl
    · rw [hanswer, hloaded, answer_eq, answer_eq]
      show _ = if m = languageOf (load source) then some (load source) else _
      split
      · rename_i hm
        rw [hm, find?_put_self]
        rfl
      · rename_i hm
        rw [find?_put_of_ne _ _ hm]

theorem answer_run_append_singleton (calls : List (Call σ)) (call : Call σ) :
    answer load languageOf (run load languageOf (calls ++ [call])) =
      answersAfter load languageOf (answer load languageOf (run load languageOf calls)) call := by
  funext m
  rw [run_append_singleton, answer_step (labelled_run calls)]

variable {R : Language → σ → Prop}

theorem RegistersOnly.of_append {calls more : List (Call σ)} (h : RegistersOnly R (calls ++ more)) :
    RegistersOnly R calls :=
  fun l source hmem => h l source (List.mem_append_left _ hmem)

theorem OwnNames.answer_run (hown : OwnNames load languageOf R) {calls : List (Call σ)}
    (h : RegistersOnly R calls) (l : Language) :
    answer load languageOf (run load languageOf calls) l = (latest? calls l).map load := by
  induction calls using List.reverseRecOn generalizing l with
  | nil => rfl
  | append_singleton calls call ih =>
    have ih := fun l => ih h.of_append l
    rw [answer_run_append_singleton]
    cases call with
    | register m source =>
      rw [latest?_append_register, answersAfter, ih l]
      by_cases hm : m = l
      · simp [hm]
      · simp [hm, Ne.symm hm]
    | lookUp m =>
      rw [latest?_append_lookUp, answersAfter, ih m]
      cases hlatest : latest? calls m with
      | none => exact ih l
      | some source =>
        have hm : languageOf (load source) = m :=
          hown m source (h.of_append m source (mem_of_latest? hlatest))
        show (if l = languageOf (load source) then some (load source) else _) = _
        split
        · rename_i hl
          rw [hl, hm, hlatest]
          rfl
        · exact ih l

theorem OwnNames.isolated (hown : OwnNames load languageOf R) {calls : List (Call σ)}
    {call : Call σ} (h : RegistersOnly R (calls ++ [call])) :
    Isolated load languageOf calls call := by
  intro l hl
  rw [hown.answer_run h, hown.answer_run h.of_append]
  cases call with
  | register m source =>
    have hm : m ≠ l := Ne.symm hl
    rw [latest?_append_register, if_neg hm]
  | lookUp m => rw [latest?_append_lookUp]

theorem registersOnly_pair {l : Language} {source : σ} (h : R l source) :
    RegistersOnly R ([.register l source] ++ [.lookUp l]) := by
  intro m s hmem
  simp only [List.singleton_append, List.mem_cons, Call.register.injEq, reduceCtorEq,
    List.not_mem_nil, or_false] at hmem
  obtain ⟨rfl, rfl⟩ := hmem
  exact h

/-- A dialect that names another language answers that language as soon as it is looked up. -/
theorem answer_displaced {l : Language} {source : σ} (h : languageOf (load source) ≠ l) :
    answer load languageOf (run load languageOf [.register l source]) (languageOf (load source)) =
      none ∧
    answer load languageOf (run load languageOf ([.register l source] ++ [.lookUp l]))
      (languageOf (load source)) = some (load source) := by
  have hfirst : ∀ m, answer load languageOf (run load languageOf [.register l source]) m =
      if m = l then some (load source) else none := fun m =>
    congrFun (answer_run_append_singleton [] (.register l source)) m
  refine ⟨by rw [hfirst, if_neg h], ?_⟩
  rw [answer_run_append_singleton, answersAfter, hfirst, if_pos rfl]
  exact if_pos rfl

theorem ownNames_of_coherent
    (h : ∀ calls, RegistersOnly R calls → Coherent load languageOf calls) :
    OwnNames load languageOf R := by
  intro l source hR
  by_cases hname : languageOf (load source) = l
  · exact hname
  · have hfound := h _ (registersOnly_pair hR) _ _ (answer_displaced hname).2
    have hnone : latest? ([.register l source] ++ [.lookUp l]) (languageOf (load source)) = none := by
      simp [latest?, Call.source?, Ne.symm hname]
    rw [hnone] at hfound
    cases hfound

theorem ownNames_of_isolated
    (h : ∀ calls call, RegistersOnly R (calls ++ [call]) → Isolated load languageOf calls call) :
    OwnNames load languageOf R := by
  intro l source hR
  by_cases hname : languageOf (load source) = l
  · exact hname
  · have hsame := h _ _ (registersOnly_pair hR) _ hname
    obtain ⟨hbefore, hbehind⟩ := answer_displaced hname
    rw [hbefore, hbehind] at hsame
    cases hsame

end Histories

/-- Behind every call a catalog answers like the table without a cache. Over all histories of
look-ups and of certain registrations, the latest registration is the only answer, and no call changes what
another language is answered, each exactly if the dialects are registered for the language that they
name. Then a language is answered if it has a registration. -/
theorem answers_latest_iff (load : σ → α) (languageOf : α → Language)
    (R : Language → σ → Prop) :
    (∀ calls call, answer load languageOf (run load languageOf (calls ++ [call])) =
      answersAfter load languageOf (answer load languageOf (run load languageOf calls)) call) ∧
    ((∀ calls, RegistersOnly R calls → Coherent load languageOf calls) ↔
      OwnNames load languageOf R) ∧
    ((∀ calls call, RegistersOnly R (calls ++ [call]) → Isolated load languageOf calls call) ↔
      OwnNames load languageOf R) ∧
    (OwnNames load languageOf R → ∀ calls, RegistersOnly R calls → ∀ l,
      answer load languageOf (run load languageOf calls) l = (latest? calls l).map load) := by
  refine ⟨answer_run_append_singleton, ⟨ownNames_of_coherent, ?_⟩, ⟨ownNames_of_isolated, ?_⟩, ?_⟩
  · intro hown calls h l a ha
    rw [← hown.answer_run h, ha]
  · intro hown calls call h
    exact hown.isolated h
  · intro hown calls h l
    exact hown.answer_run h l

theorem ownNames_dialect :
    OwnNames Language.dialect Dialect.language fun l source => source = l := by
  rintro _ l rfl
  exact l.language_dialect

theorem answers_latest_iff_again :
    OwnNames Language.dialect Dialect.language (fun l source => source = l) ∧
    RegistersOnly (fun l source => source = l) [.register .kotlin .kotlin, .lookUp .kotlin,
      .lookUp .java, .register .java .java, .register .kotlin .kotlin] ∧
    Coherent Language.dialect Dialect.language [.register .kotlin .kotlin, .lookUp .kotlin,
      .lookUp .java, .register .java .java, .register .kotlin .kotlin] ∧
    answer Language.dialect Dialect.language
      (run Language.dialect Dialect.language [.register .kotlin .kotlin, .lookUp .kotlin,
        .lookUp .java, .register .java .java, .register .kotlin .kotlin]) .kotlin =
      some Kotlin.dialect := by
  have honly : RegistersOnly (fun l source => source = l) [.register .kotlin .kotlin,
      .lookUp .kotlin, .lookUp .java, .register .java .java, .register .kotlin .kotlin] := by
    intro l source hmem
    cases l <;> cases source <;> simp_all
  obtain ⟨-, hcoherent, -, hanswer⟩ :=
    answers_latest_iff Language.dialect Dialect.language fun l source => source = l
  exact ⟨ownNames_dialect, honly, hcoherent.mpr ownNames_dialect _ honly,
    hanswer ownNames_dialect _ honly .kotlin⟩

/-- Each language is registered for the dialect of the other one. The look-up of the first puts its
dialect in the place of the second's. -/
theorem lookUp_displaces :
    latest? [.register .kotlin .java, .register .java .kotlin, .lookUp .kotlin] .java =
      some Language.kotlin ∧
    answer Language.dialect Dialect.language
      (run Language.dialect Dialect.language [.register .kotlin .java, .register .java .kotlin])
      .java = some Kotlin.dialect ∧
    answer Language.dialect Dialect.language
      (run Language.dialect Dialect.language
        [.register .kotlin .java, .register .java .kotlin, .lookUp .kotlin])
      .java = some Java.dialect ∧
    ¬ Coherent Language.dialect Dialect.language
      [.register .kotlin .java, .register .java .kotlin, .lookUp .kotlin] ∧
    ¬ Isolated Language.dialect Dialect.language
      [.register .kotlin .java, .register .java .kotlin] (.lookUp .kotlin) := by
  have hne : some Java.dialect ≠ some Kotlin.dialect := by
    intro h
    have hextension := congrArg (Option.map Dialect.extension) h
    revert hextension
    decide
  refine ⟨rfl, rfl, rfl, fun h => ?_, fun h => ?_⟩
  · exact hne (h .java Java.dialect rfl).symm
  · exact hne (h .java (by decide))

/-- The dialects of the program name their own languages, so that no look-up disturbs another. -/
theorem answer_standard (ls : List Language) (l : Language) :
    answer Language.dialect Dialect.language
      (ls.foldl (fun c m => (c.get Language.dialect Dialect.language m).2) standard) l =
      some l.dialect := by
  have hrun : ls.foldl (fun c m => (c.get Language.dialect Dialect.language m).2) standard =
      run Language.dialect Dialect.language
        ([.register .kotlin .kotlin, .register .java .java] ++ ls.map .lookUp) := by
    rw [run, List.foldl_append, List.foldl_map]
    rfl
  have honly : RegistersOnly (fun l source => source = l)
      ([.register .kotlin .kotlin, .register .java .java] ++ ls.map Call.lookUp) := by
    intro m source hmem
    cases m <;> cases source <;> simp_all
  have hlatest : latest? ([.register .kotlin .kotlin, .register .java .java] ++
      ls.map Call.lookUp) l = some l := by
    have hsilent : (ls.map Call.lookUp).filterMap (fun call : Call Language => call.source? l) =
        [] := by
      simp [Call.source?]
    rw [latest?, List.filterMap_append, hsilent, List.append_nil]
    cases l <;> rfl
  rw [hrun, ownNames_dialect.answer_run honly, hlatest]
  rfl

end Catalog

end BuildConstants
