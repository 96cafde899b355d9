import BuildConstants.Text.Lowercase

/-!
# Class names of a request

A registry gives qualified names to the types that are not built in. The latest entry with the
very name wins; only if there is none, the latest entry whose name differs in case.
-/

namespace BuildConstants

open Text

structure ClassEntry where
  qualified : String
  container : Bool
  deriving DecidableEq

structure ClassRegistry where
  entries : List (String × ClassEntry)

namespace ClassRegistry

def empty : ClassRegistry := ⟨[]⟩

def register (r : ClassRegistry) (name : String) (entry : ClassEntry) : ClassRegistry :=
  ⟨r.entries ++ [(name, entry)]⟩

/-- The latest entry whose name passes. -/
def latest? (r : ClassRegistry) (passes : String → Bool) : Option ClassEntry :=
  (r.entries.reverse.find? fun e => passes e.1).map (·.2)

def lookup (r : ClassRegistry) (name : String) : Option ClassEntry :=
  (r.latest? (· == name)).or (r.latest? fun key => lowercase key == lowercase name)

def names (r : ClassRegistry) : List String :=
  r.entries.map (·.1)

theorem latest?_register (r : ClassRegistry) (name : String) (entry : ClassEntry)
    (passes : String → Bool) :
    (r.register name entry).latest? passes =
      if passes name then some entry else r.latest? passes := by
  by_cases h : passes name <;> simp [register, latest?, h]

@[simp] theorem names_register (r : ClassRegistry) (name : String) (entry : ClassEntry) :
    (r.register name entry).names = r.names ++ [name] := by
  simp [register, names]

end ClassRegistry

end BuildConstants
