import BuildConstants.Dialect.Java
import BuildConstants.Dialect.Kotlin

/-!
# The catalog of dialects

A catalog knows where the dialect of each language is found and loads it on the first request.
What was loaded is kept under the language that the loaded dialect itself names; a new
registration of a language drops what was kept under it.
-/

namespace BuildConstants

/-- `σ` says where a dialect is found and `α` is a dialect. -/
structure Catalog (σ α : Type) where
  sources : List (Language × σ)
  loaded : List (Language × α)

namespace Catalog

variable {σ α : Type}

def empty : Catalog σ α := ⟨[], []⟩

def find? (entries : List (Language × β)) (l : Language) : Option β :=
  (entries.find? fun e => e.1 == l).map (·.2)

def drop (entries : List (Language × β)) (l : Language) : List (Language × β) :=
  entries.filter fun e => e.1 != l

def put (entries : List (Language × β)) (l : Language) (b : β) : List (Language × β) :=
  (l, b) :: drop entries l

theorem find?_put_self (entries : List (Language × β)) (l : Language) (b : β) :
    find? (put entries l b) l = some b := by
  simp [find?, put]

theorem find?_drop_self (entries : List (Language × β)) (l : Language) :
    find? (drop entries l) l = none := by
  simp [find?, drop]

theorem find?_drop_of_ne (entries : List (Language × β)) {l m : Language} (h : m ≠ l) :
    find? (drop entries l) m = find? entries m := by
  induction entries with
  | nil => rfl
  | cons e rest ih =>
    simp only [find?, drop] at ih ⊢
    by_cases hl : e.1 = l
    · have hm : e.1 ≠ m := fun hm => h (hm.symm.trans hl)
      simpa [hl, h.symm] using ih
    · by_cases hm : e.1 = m
      · simp [hm, h]
      · simpa [hl, hm] using ih

theorem find?_put_of_ne (entries : List (Language × β)) (b : β) {l m : Language} (h : m ≠ l) :
    find? (put entries l b) m = find? entries m := by
  have hput : find? (put entries l b) m = find? (drop entries l) m := by
    simp [find?, put, h.symm]
  rw [hput, find?_drop_of_ne entries h]

def register (c : Catalog σ α) (l : Language) (source : σ) : Catalog σ α :=
  ⟨put c.sources l source, drop c.loaded l⟩

def get (load : σ → α) (languageOf : α → Language) (c : Catalog σ α) (l : Language) :
    Option α × Catalog σ α :=
  match find? c.loaded l with
  | some a => (some a, c)
  | none => match find? c.sources l with
    | none => (none, c)
    | some source =>
      let a := load source
      (some a, ⟨c.sources, put c.loaded (languageOf a) a⟩)

def languages (c : Catalog σ α) : List String :=
  (c.sources.map fun e => e.1.name).mergeSort fun a b => !(b < a)

end Catalog

def Language.dialect : Language → Dialect
  | kotlin => Kotlin.dialect
  | java => Java.dialect

theorem Language.language_dialect (l : Language) : l.dialect.language = l := by
  cases l <;> rfl

def Catalog.standard : Catalog Language Dialect :=
  (Catalog.empty.register .kotlin .kotlin).register .java .java

def Language.parse (s : String) : Except Fault Language :=
  match Language.ofName? (Text.lowercase s) with
  | some l => .ok l
  | none => .error (.unknownMember .language (Text.lowercase s))

def Visibility.parse (s : String) : Except Fault Visibility :=
  match Visibility.ofName? s with
  | some v => .ok v
  | none => .error (.unknownMember .visibility s)

def Language.parseExact (s : String) : Except Fault Language :=
  match Language.ofName? s with
  | some l => .ok l
  | none => .error (.unknownMember .language s)

end BuildConstants
