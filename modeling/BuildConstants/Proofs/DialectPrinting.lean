import BuildConstants.Dialect.Catalog
import BuildConstants.Proofs.ArrayCreation

/-!
# Printing in both languages

Both styles are regular, so filling the template of a value prints the value. Kotlin has brackets
for every array; Java has them for arrays whose element type has a name.
-/

namespace BuildConstants

open Literal

def Kotlin.form : ScalarKind → Form
  | .char => ⟨"", .char, ""⟩
  | .string => ⟨"", .string, ""⟩
  | .long => ⟨"", .plain, "L"⟩
  | .float => ⟨"", .plain, "f"⟩
  | _ => ⟨"", .plain, ""⟩

theorem Kotlin.style_regular : Kotlin.style.Regular Kotlin.form where
  rule k := by cases k <;> decide
  before k := by cases k <;> decide
  after k := by cases k <;> decide
  null := by decide
  separator := by decide
  primitiveArray k :=
    ⟨(Java.name_percentFree k).append (by decide), show PercentFree ")" by decide⟩
  list := ⟨by decide, by decide⟩
  set := ⟨by decide, by decide⟩

theorem Kotlin.style_creates : ∀ t : ResolvedType, Kotlin.style.Creates t
  | .array none _ => ⟨_, rfl, by decide, by decide⟩
  | .array (some e) _ => ⟨⟨_, rfl, by decide, by decide⟩, style_creates e⟩
  | .list (some e) _ | .set (some e) _ => style_creates e
  | .list none _ | .set none _ => trivial
  | .primitive .. | .string _ | .primitiveArray .. | .named .. => trivial

def Java.form : ScalarKind → Form
  | .byte => ⟨"(byte) ", .plain, ""⟩
  | .short => ⟨"(short) ", .plain, ""⟩
  | .char => ⟨"", .char, ""⟩
  | .string => ⟨"", .string, ""⟩
  | .long => ⟨"", .plain, "L"⟩
  | .float => ⟨"", .plain, "f"⟩
  | _ => ⟨"", .plain, ""⟩

theorem Java.style_regular : Java.style.Regular Java.form where
  rule k := by cases k <;> decide
  before k := by cases k <;> decide
  after k := by cases k <;> decide
  null := by decide
  separator := by decide
  primitiveArray k :=
    ⟨(PercentFree.append (by decide) (Java.name_percentFree k)).append (by decide),
      show PercentFree "\x7d" by decide⟩
  list := ⟨by decide, by decide⟩
  set := ⟨by decide, by decide⟩

namespace Language

def form : Language → ScalarKind → Form
  | kotlin => Kotlin.form
  | java => Java.form

/-- The text of a value, written without a template. -/
def print (l : Language) (t : ResolvedType) (v : Tagged) : Except Fault String :=
  Literal.print l.dialect.style l.form t v

theorem style_regular (l : Language) : l.dialect.style.Regular l.form := by
  cases l with
  | kotlin => exact Kotlin.style_regular
  | java => exact Java.style_regular

/-- Java writes class names into its templates and needs a name for every element type. -/
structure Allows (l : Language) (t : ResolvedType) : Prop where
  percentFree : l = .java → ∀ q ∈ t.classNames, PercentFree q
  creatable : l = .java → Java.isCreatable t = true

theorem Allows.creates {l : Language} {t : ResolvedType} (h : l.Allows t) :
    l.dialect.style.Creates t := by
  cases l with
  | kotlin => exact Kotlin.style_creates t
  | java => exact Java.creates_of_isCreatable t (h.creatable rfl) (h.percentFree rfl)

/-- Two phases print what one phase prints: the template announces the leaves of the value, and
filling it with them gives the direct text or the first fault of the direct printer. -/
theorem render_format_eq_print (l : Language) {t : ResolvedType} {v : Tagged} (hv : Fits t v)
    (hq : l = .java → ∀ q ∈ t.classNames, PercentFree q)
    (hc : l = .java → Java.isCreatable t = true) :
    ∃ template, format l.dialect.style t v = .ok template ∧
      template.count = v.flatten.length ∧
      render l.dialect.style template.text v.flatten = l.print t v := by
  have hallows : l.Allows t := ⟨hq, hc⟩
  obtain ⟨template, hformat, hprints⟩ := format_prints l.style_regular hv hallows.creates
  exact ⟨template, hformat, hprints.count, hprints.render_eq⟩

theorem render_format_eq_print_percent :
    (∀ q ∈ (ResolvedType.array (some (.named "a.B" [] false true)) false).classNames,
      PercentFree q) ∧
    Java.isCreatable (.array (some (.named "a.B" [] false true)) false) = true ∧
    Fits (.array (some (.named "a.B" [] false true)) false)
      (.tuple [.scalar ⟨.string, .text "%L"⟩, .null]) ∧
    ∃ template, format java.dialect.style (.array (some (.named "a.B" [] false true)) false)
        (.tuple [.scalar ⟨.string, .text "%L"⟩, .null]) = .ok template ∧
      template.count = 1 ∧
      render java.dialect.style template.text [⟨.string, .text "%L"⟩] =
        java.print (.array (some (.named "a.B" [] false true)) false)
          (.tuple [.scalar ⟨.string, .text "%L"⟩, .null]) := by
  have hfit : Fits (.array (some (.named "a.B" [] false true)) false)
      (.tuple [.scalar ⟨.string, .text "%L"⟩, .null]) := by
    refine .generic rfl fun v hv => ?_
    rcases List.mem_cons.mp hv with rfl | hv
    · exact .scalar _ _
    · obtain rfl := List.mem_singleton.mp hv
      exact .null _
  exact ⟨by decide, rfl, hfit, render_format_eq_print java hfit (fun _ => by decide) fun _ => rfl⟩

/-- Empty arrays fit their types, but an element type without a Java name gives no template. -/
theorem no_format_of_nameless_element :
    (Fits (.array (some (.primitive .string false)) false) (.tuple []) ∧
      (ResolvedType.array (some (.primitive .string false)) false).classNames = [] ∧
      ¬ ∃ template, format java.dialect.style (.array (some (.primitive .string false)) false)
        (.tuple []) = .ok template) ∧
    Fits (.array none false) (.tuple []) ∧ (ResolvedType.array none false).classNames = [] ∧
    ¬ ∃ template, format java.dialect.style (.array none false) (.tuple []) = .ok template := by
  have hfit (e : Option ResolvedType) : Fits (.array e false) (.tuple []) := by
    refine .generic rfl ?_
    simp
  refine ⟨⟨hfit _, rfl, ?_⟩, hfit _, rfl, ?_⟩
  · rintro ⟨template, h⟩
    cases h
  · rintro ⟨template, h⟩
    cases h

end Language

end BuildConstants
