import BuildConstants.Dialect.Java
import BuildConstants.Proofs.Printing

/-!
# Array creation

Java writes an array with the erasure of its element type, so the type needs a Java name: its
arrays declare their elements, and its primitives are of the kinds that have primitive types.
-/

namespace BuildConstants

namespace ResolvedType

mutual

/-- The qualified names of the classes in a type. -/
def classNames : ResolvedType → List String
  | .array (some e) _ | .list (some e) _ | .set (some e) _ => e.classNames
  | .named q as _ _ => q :: allClassNames as
  | _ => []

def allClassNames : List ResolvedType → List String
  | [] => []
  | t :: rest => t.classNames ++ allClassNames rest

end

end ResolvedType

namespace Java

open Literal Outcome

mutual

def hasName : ResolvedType → Bool
  | .primitive k _ => k.isPrimitive
  | .array none _ => false
  | .array (some e) _ | .list (some e) _ | .set (some e) _ => hasName e
  | .named _ as _ _ => allHaveNames as
  | _ => true

def allHaveNames : List ResolvedType → Bool
  | [] => true
  | t :: rest => hasName t && allHaveNames rest

end

/-- Every array that a value of the type may need has an element type with a name. -/
def isCreatable : ResolvedType → Bool
  | .array none _ => false
  | .array (some e) _ => hasName e
  | .list (some e) _ | .set (some e) _ => isCreatable e
  | _ => true

theorem isCreatable_of_hasName : ∀ t : ResolvedType, hasName t = true → isCreatable t = true
  | .array (some _) _, h => h
  | .list (some e) _, h | .set (some e) _, h => isCreatable_of_hasName e h
  | .array none _, h => h
  | .list none _, _ | .set none _, _ => rfl
  | .primitive .., _ | .string _, _ | .primitiveArray .., _ | .named .., _ => rfl

theorem name_percentFree (k : ScalarKind) : PercentFree k.name := by
  cases k <;> decide

theorem boxedName_of_isPrimitive {k : ScalarKind} (h : k.isPrimitive = true) :
    ∃ name, boxedName k = .ok name ∧ PercentFree name := by
  cases k <;> first | exact ⟨_, rfl, by decide⟩ | cases h

mutual

theorem typeName_of_hasName (boxed : Bool) : ∀ t : ResolvedType, hasName t = true →
    ∃ name, typeName boxed t = .ok name ∧
      ((∀ q ∈ t.classNames, PercentFree q) → PercentFree name)
  | .primitive k n, h => by
    obtain ⟨name, hname, hfree⟩ := boxedName_of_isPrimitive h
    by_cases hb : (boxed || n) = true
    · exact ⟨name, by simp only [typeName, hb, if_true, hname], fun _ => hfree⟩
    · exact ⟨k.name, by simp only [typeName, hb]; rfl, fun _ => name_percentFree k⟩
  | .string _, _ => ⟨"String", rfl, fun _ => by decide⟩
  | .primitiveArray k _, _ => ⟨k.name ++ "[]", rfl, fun _ => (name_percentFree k).append (by decide)⟩
  | .array none _, h => by cases h
  | .array (some e) _, h => by
    obtain ⟨name, hname, hfree⟩ := typeName_of_hasName true e h
    exact ⟨name ++ "[]", by simp [typeName, hname], fun hq => (hfree hq).append (by decide)⟩
  | .list none _, _ => ⟨_, rfl, fun _ => by decide⟩
  | .list (some e) _, h => by
    obtain ⟨name, hname, hfree⟩ := typeName_of_hasName true e h
    refine ⟨"java.util.List<" ++ name ++ ">", by simp [typeName, hname], fun hq => ?_⟩
    exact (PercentFree.append (by decide) (hfree hq)).append (by decide)
  | .set none _, _ => ⟨_, rfl, fun _ => by decide⟩
  | .set (some e) _, h => by
    obtain ⟨name, hname, hfree⟩ := typeName_of_hasName true e h
    refine ⟨"java.util.Set<" ++ name ++ ">", by simp [typeName, hname], fun hq => ?_⟩
    exact (PercentFree.append (by decide) (hfree hq)).append (by decide)
  | .named q [] _ _, _ => ⟨q, rfl, fun hq => hq q List.mem_cons_self⟩
  | .named q (a :: rest) _ _, h => by
    obtain ⟨names, hnames, hfree⟩ := boxedNames_of_allHaveNames (a :: rest) h
    refine ⟨q ++ "<" ++ String.intercalate ", " names ++ ">", by simp [typeName, hnames],
      fun hq => ?_⟩
    have hself : PercentFree q := hq q List.mem_cons_self
    have hnames' := hfree fun q' hq' => hq q' (List.mem_cons_of_mem q hq')
    have hjoined : PercentFree (String.intercalate ", " names) :=
      PercentFree.intercalate (by decide) hnames'
    exact ((hself.append (by decide)).append hjoined).append (by decide)

theorem boxedNames_of_allHaveNames : ∀ ts : List ResolvedType, allHaveNames ts = true →
    ∃ names, boxedNames ts = .ok names ∧
      ((∀ q ∈ ResolvedType.allClassNames ts, PercentFree q) → ∀ s ∈ names, PercentFree s)
  | [], _ => ⟨[], rfl, fun _ s hs => by cases hs⟩
  | t :: rest, h => by
    rw [allHaveNames, Bool.and_eq_true] at h
    obtain ⟨name, hname, hfree⟩ := typeName_of_hasName true t h.1
    obtain ⟨names, hnames, hfrees⟩ := boxedNames_of_allHaveNames rest h.2
    refine ⟨name :: names, by simp [boxedNames, hname, hnames], fun hq s hs => ?_⟩
    rcases List.mem_cons.mp hs with rfl | hs
    · exact hfree fun q hm => hq q (List.mem_append_left _ hm)
    · exact hfrees (fun q hm => hq q (List.mem_append_right _ hm)) s hs

end

theorem beforeArguments_percentFree {s : String} (h : PercentFree s) :
    PercentFree (beforeArguments s) := by
  rw [PercentFree, beforeArguments, String.toList_ofList]
  exact fun hm => h (List.takeWhile_subset _ hm)

theorem erasure_of_cut {t : ResolvedType}
    (ht : erasure t = typeName false t >>= fun name => .ok (beforeArguments name))
    (h : hasName t = true) :
    ∃ name, erasure t = .ok name ∧ ((∀ q ∈ t.classNames, PercentFree q) → PercentFree name) := by
  obtain ⟨name, hname, hfree⟩ := typeName_of_hasName false t h
  refine ⟨beforeArguments name, by simp [ht, hname], fun hq => ?_⟩
  exact beforeArguments_percentFree (hfree hq)

theorem erasure_of_hasName : ∀ t : ResolvedType, hasName t = true →
    ∃ name, erasure t = .ok name ∧ ((∀ q ∈ t.classNames, PercentFree q) → PercentFree name)
  | .primitive k n, h => by
    obtain ⟨name, hname, hfree⟩ := boxedName_of_isPrimitive h
    exact ⟨name, hname, fun _ => hfree⟩
  | .string _, _ => ⟨"String", rfl, fun _ => by decide⟩
  | .primitiveArray k _, _ => ⟨k.name ++ "[]", rfl, fun _ => (name_percentFree k).append (by decide)⟩
  | .array none _, h => by cases h
  | .array (some e) _, h => by
    obtain ⟨name, hname, hfree⟩ := erasure_of_hasName e h
    exact ⟨name ++ "[]", by simp [erasure, hname], fun hq => (hfree hq).append (by decide)⟩
  | .list e n, h => erasure_of_cut rfl h
  | .set e n, h => erasure_of_cut rfl h
  | .named q as c n, h => erasure_of_cut rfl h

theorem genericArray_of_hasName {e : ResolvedType} (h : hasName e = true)
    (hq : ∀ q ∈ e.classNames, PercentFree q) :
    ∃ b, style.genericArray (some e) = .ok b ∧ b.PercentFree := by
  obtain ⟨name, hname, hfree⟩ := erasure_of_hasName e h
  refine ⟨⟨"new " ++ name ++ "[] \x7b", "\x7d"⟩, by simp [style, genericArray, hname], ?_, ?_⟩
  · exact (PercentFree.append (by decide) (hfree hq)).append (by decide)
  · show PercentFree "\x7d"
    decide

theorem creates_of_isCreatable : ∀ t : ResolvedType, isCreatable t = true →
    (∀ q ∈ t.classNames, PercentFree q) → style.Creates t
  | .array none _, h, _ => by cases h
  | .array (some e) _, h, hq =>
    ⟨genericArray_of_hasName h hq,
      creates_of_isCreatable e (isCreatable_of_hasName e h) hq⟩
  | .list (some e) _, h, hq | .set (some e) _, h, hq => creates_of_isCreatable e h hq
  | .list none _, _, _ | .set none _, _, _ => trivial
  | .primitive .., _, _ | .string _, _, _ | .primitiveArray .., _, _ | .named .., _, _ => trivial

end Java

end BuildConstants
