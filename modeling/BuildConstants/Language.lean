import BuildConstants.Text.Alphanumeric
import BuildConstants.Value.Kind

/-!
# Options of a request with named values

Target languages and visibilities. Together with scalar kinds they are the enumerations that a
configuration may name.
-/

namespace BuildConstants

inductive Language
  | kotlin
  | java
  deriving DecidableEq

namespace Language

def all : List Language := [kotlin, java]

def name : Language → String
  | kotlin => "kotlin"
  | java => "java"

def capitalName : Language → String
  | kotlin => "KOTLIN"
  | java => "JAVA"

def ofName? (s : String) : Option Language :=
  all.find? (·.name == s)

end Language

inductive Visibility
  | hidden
  | exposed
  deriving DecidableEq

namespace Visibility

def all : List Visibility := [hidden, exposed]

def name : Visibility → String
  | hidden => "internal"
  | exposed => "public"

def capitalName : Visibility → String
  | hidden => "INTERNAL"
  | exposed => "PUBLIC"

def ofName? (s : String) : Option Visibility :=
  all.find? (·.name == s)

end Visibility

/-- An enumeration has members, each with a capital name and a value that is a text. No two members
have one name or one value, and names are words. -/
structure Enumeration where
  name : String
  entries : List (String × String)
  names_nodup : (entries.map (·.1)).Nodup := by decide
  values_nodup : (entries.map (·.2)).Nodup := by decide
  words : ∀ s ∈ name :: entries.map (·.1), s.toList.all Text.isWord = true := by decide
  deriving DecidableEq

/-- A value of an enumeration. Its name is the text that it stands for. -/
structure Member where
  enumeration : Enumeration
  capitalName : String
  name : String
  mem_entries : (capitalName, name) ∈ enumeration.entries

namespace Enumeration

def language : Enumeration where
  name := "Language"
  entries := Language.all.map fun l => (l.capitalName, l.name)

def visibility : Enumeration where
  name := "Visibility"
  entries := Visibility.all.map fun v => (v.capitalName, v.name)

def scalarKind : Enumeration where
  name := "ScalarKind"
  entries := ScalarKind.all.map fun k => (k.capitalName, k.name)

def members (e : Enumeration) : List Member :=
  e.entries.attach.map fun entry => ⟨e, entry.1.1, entry.1.2, entry.2⟩

theorem mem_members_iff {e : Enumeration} {m : Member} : m ∈ e.members ↔ m.enumeration = e := by
  constructor
  · intro h
    obtain ⟨entry, -, rfl⟩ := List.mem_map.mp h
    rfl
  · rintro rfl
    exact List.mem_map.mpr ⟨⟨_, m.mem_entries⟩, List.mem_attach _ _, rfl⟩

end Enumeration

namespace Member

def language (l : Language) : Member :=
  ⟨.language, l.capitalName, l.name, by cases l <;> decide⟩

def visibility (v : Visibility) : Member :=
  ⟨.visibility, v.capitalName, v.name, by cases v <;> decide⟩

def scalarKind (k : ScalarKind) : Member :=
  ⟨.scalarKind, k.capitalName, k.name, by cases k <;> decide⟩

def label (m : Member) : String :=
  m.enumeration.name ++ "." ++ m.capitalName

def ofName? (e : Enumeration) (s : String) : Option Member :=
  e.members.find? (·.name == s)

def ofCapitalName? (e : Enumeration) (s : String) : Option Member :=
  e.members.find? (·.capitalName == s)

end Member

end BuildConstants
