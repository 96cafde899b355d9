import BuildConstants.Proofs.AlikeTemplates
import BuildConstants.Proofs.Tagging

/-!
# The languages agree

Both languages emit the same constants, unless a scalar comes with a kind of its own: then the
spelling of the least long is the only place where they could part. The declarations have the same
type and are constants together; what one language refuses, the other refuses for a cause of the
same family.
-/

namespace BuildConstants

open Literal Outcome ResolvedType

/-- The initial value is code, or a literal that was tagged from a value without tags. -/
inductive Constant.Untagged : Constant → Prop
  | expression (name : String) (type : TypeExpr) (code : String) :
      Untagged ⟨name, type, .expression code⟩
  | literal (name : String) (type : TypeExpr) {raw : Datum} {c : Constant} (hraw : raw.Untagged)
      (h : ofDatum name type raw = .ok c) : Untagged c

theorem Constant.Untagged.longHoldsInt {c : Constant} (hc : c.Untagged) {v : Tagged}
    (hv : c.initial = .literal v) : ∀ s ∈ v.flatten, s.LongHoldsInt := by
  cases hc with
  | expression name type code => cases hv
  | literal name type hraw h =>
    obtain ⟨w, hw, h⟩ := bind_eq_ok_iff.mp h
    obtain rfl := Except.ok.inj h
    obtain rfl := Initial.literal.inj hv
    exact Tagged.longHoldsInt_of_untagged hraw hw

theorem parallel_styles : Kotlin.style.Parallel Java.style Kotlin.form Java.form where
  left := Kotlin.style_regular
  right := Java.style_regular
  hole k := by cases k <;> rfl

/-- Kotlin spells the least long in its own way; the other language accepts it too. -/
theorem spell_concur {s : Scalar} (hs : s.LongHoldsInt) (h : Hole) :
    Concur (spell Kotlin.style h s) (spell Java.style h s) := by
  cases h with
  | string => exact .ok trivial
  | char => exact Concur.map (.refl (fun _ => trivial) (charOf s.value)) _ _
  | plain =>
    show Concur (Kotlin.plain s) (Literal.plain s)
    rw [Kotlin.plain]
    split
    · rename_i hmin
      rw [Bool.and_eq_true, decide_eq_true_eq] at hmin
      obtain ⟨n, hn⟩ := hs hmin.1
      have hleast : Kotlin.longMin = n := by simpa [hn, Datum.equalsInt] using hmin.2
      have hplain : Literal.plain s = .ok (Int.repr Kotlin.longMin) := by
        rw [Literal.plain, hmin.1, hn, ← hleast]
        rfl
      rw [hplain]
      exact .ok trivial
    · exact .refl (fun _ => trivial) _

/-- A type with a name in both languages, for whose arrays Java has brackets. -/
structure ResolvedType.Shared (t : ResolvedType) : Prop where
  kotlin : Kotlin.HasName t
  java : Java.hasName t = true
  percentFree : ∀ q ∈ t.classNames, PercentFree q

theorem ResolvedType.Shared.creates {t : ResolvedType} (h : t.Shared) :
    Java.style.Creates t :=
  Java.creates_of_isCreatable t (Java.isCreatable_of_hasName t h.java) h.percentFree

theorem ResolvedType.Shared.withNullable {t : ResolvedType} (h : t.Shared) (n : Bool) :
    (t.withNullable n).Shared where
  kotlin := h.kotlin.withNullable n
  java := Java.hasName_withNullable h.java n
  percentFree := by
    rw [classNames_withNullable]
    exact h.percentFree

theorem ResolvedType.Shared.adapt {t : ResolvedType} (h : t.Shared) (initial : Initial) :
    (initial.adapt t).Shared := by
  rw [Initial.adapt]
  split
  · exact h.withNullable true
  · exact h

theorem TypeExpr.shared_of_resolve {classes : ClassRegistry}
    (hq : ∀ e ∈ classes.entries, PercentFree e.2.qualified) {type : TypeExpr} {t : ResolvedType}
    (h : type.resolve classes = .ok t) : t.Shared where
  kotlin := (Kotlin.kept_hasName classes).resolve type t h
  java := type.hasName_of_resolve t h
  percentFree q hmem := by
    obtain ⟨e, he, rfl⟩ := (kept_registered classes).resolve type t h q hmem
    exact hq e he

/-- Literals fail together: at the same element, at the same leaf, or by the same count. -/
theorem initializer_concur (name : String) {t : ResolvedType} (ht : t.Shared)
    {initial : Initial} (hleaf : ∀ v, initial = .literal v → ∀ s ∈ v.flatten, s.LongHoldsInt) :
    Concur (Kotlin.dialect.initializer name t initial)
      (Java.dialect.initializer name t initial) := by
  cases initial with
  | expression code => exact .ok trivial
  | literal v =>
    rw [Dialect.initializer, Dialect.initializer]
    refine (parallel_styles.format_agree v (Kotlin.style_creates t) ht.creates).bind ?_
    intro template template' halike
    have hcount : template.count = template'.count := by
      rw [halike.count.1, halike.count.2, halike.marks]
    obtain ⟨kotlinName, hkotlin⟩ := ht.kotlin
    obtain ⟨javaName, hjava, -⟩ := Java.typeName_of_hasName false t ht.java
    have hkotlin : Kotlin.dialect.typeName t = .ok kotlinName := hkotlin
    have hjava : Java.dialect.typeName t = .ok javaName := hjava
    rw [hkotlin, hjava, ← hcount]
    -- A wrong count comes with the name of the type, in which the languages differ.
    dsimp only
    split
    · exact .error rfl
    · rename_i hargs
      have hargs : template.count = v.flatten.length := by simpa using hargs
      exact render_concur halike hargs fun k s hs => spell_concur (hleaf v rfl s hs) k

theorem declaration_agree {c : Constant} (hc : c.Untagged) {classes : ClassRegistry}
    (hq : ∀ e ∈ classes.entries, PercentFree e.2.qualified) {k j : String}
    (hk : Kotlin.dialect.identifier c.name = .ok k)
    (hj : Java.dialect.identifier c.name = .ok j) :
    Agree (fun d e => d.type = e.type ∧ d.constant = e.constant)
      (Kotlin.dialect.declaration c classes) (Java.dialect.declaration c classes) := by
  simp only [Dialect.declaration, hk, hj, ok_bind]
  cases hresolve : c.type.resolve classes with
  | error e => exact .error rfl
  | ok t =>
    have hshared := (TypeExpr.shared_of_resolve hq hresolve).adapt c.initial
    have htext := initializer_concur c.name hshared fun v hv => hc.longHoldsInt hv
    exact htext.bind fun _ _ _ => .ok ⟨rfl, rfl⟩

namespace Language

/-- A constant without tags of its own is emitted by both languages, with one type and as a
constant in both or in neither, or it is refused by both for causes of one family. -/
theorem emit_agree {c : Constant} (hc : c.Untagged) {classes : ClassRegistry}
    (hq : ∀ e ∈ classes.entries, PercentFree e.2.qualified) {k j : String}
    (hk : kotlin.dialect.identifier c.name = .ok k)
    (hj : java.dialect.identifier c.name = .ok j) :
    (∃ d e, kotlin.dialect.emit c classes = .ok d ∧ java.dialect.emit c classes = .ok e ∧
      d.type = e.type ∧ d.constant = e.constant) ∨
    ∃ f g, kotlin.dialect.emit c classes =
        .error (.constant c.name c.type.text c.initial.shown.1 c.initial.shown.2 f) ∧
      java.dialect.emit c classes =
        .error (.constant c.name c.type.text c.initial.shown.1 c.initial.shown.2 g) ∧
      f.family = g.family := by
  rcases (declaration_agree hc hq hk hj).ok_or_error with
    ⟨d, e, hd, he, h⟩ | ⟨f, g, hf, hg, h⟩
  · exact .inl ⟨d, e, by simp [dialect, Dialect.emit, hd], by simp [dialect, Dialect.emit, he], h⟩
  · exact .inr ⟨f, g, by simp [dialect, Dialect.emit, hf], by simp [dialect, Dialect.emit, hg], h⟩

theorem emit_agree_least_long :
    kotlin.dialect.identifier "LIMITS" = .ok "LIMITS" ∧
    java.dialect.identifier "LIMITS" = .ok "LIMITS" ∧
    (∀ e ∈ (⟨[("Id", ⟨"a.Id", false⟩)]⟩ : ClassRegistry).entries, PercentFree e.2.qualified) ∧
    Constant.Untagged ⟨"LIMITS", ⟨"List", false, false, [⟨"long", false, false, []⟩]⟩,
      .literal (.tuple [.scalar ⟨.long, .int Kotlin.longMin⟩, .null])⟩ ∧
    ∃ d e, kotlin.dialect.emit ⟨"LIMITS", ⟨"List", false, false, [⟨"long", false, false, []⟩]⟩,
        .literal (.tuple [.scalar ⟨.long, .int Kotlin.longMin⟩, .null])⟩
        ⟨[("Id", ⟨"a.Id", false⟩)]⟩ = .ok d ∧
      java.dialect.emit ⟨"LIMITS", ⟨"List", false, false, [⟨"long", false, false, []⟩]⟩,
        .literal (.tuple [.scalar ⟨.long, .int Kotlin.longMin⟩, .null])⟩
        ⟨[("Id", ⟨"a.Id", false⟩)]⟩ = .ok e ∧
      d.type = e.type ∧ d.constant = e.constant := by
  have hfree : ∀ e ∈ (⟨[("Id", ⟨"a.Id", false⟩)]⟩ : ClassRegistry).entries,
      PercentFree e.2.qualified := by decide
  have hraw : Datum.Untagged (.list [.int Kotlin.longMin, .null]) := by
    refine .sequence rfl fun e he => ?_
    simp only [List.mem_cons, List.not_mem_nil, or_false] at he
    rcases he with rfl | rfl
    · exact .single rfl fun _ _ => Datum.noConfusion
    · exact .single rfl fun _ _ => Datum.noConfusion
  have huntagged : Constant.Untagged
      ⟨"LIMITS", ⟨"List", false, false, [⟨"long", false, false, []⟩]⟩,
        .literal (.tuple [.scalar ⟨.long, .int Kotlin.longMin⟩, .null])⟩ :=
    .literal "LIMITS" ⟨"List", false, false, [⟨"long", false, false, []⟩]⟩ hraw rfl
  have hkotlin : kotlin.dialect.emit
      ⟨"LIMITS", ⟨"List", false, false, [⟨"long", false, false, []⟩]⟩,
        .literal (.tuple [.scalar ⟨.long, .int Kotlin.longMin⟩, .null])⟩
      ⟨[("Id", ⟨"a.Id", false⟩)]⟩ =
    .ok ⟨"LIMITS", .list (some (.primitive .long false)) false,
      "listOf(-9223372036854775807L - 1L, null)", false⟩ := rfl
  refine ⟨rfl, rfl, hfree, huntagged, ?_⟩
  rcases emit_agree huntagged hfree rfl rfl with h | ⟨f, g, hf, -, -⟩
  · exact h
  · rw [hkotlin] at hf
    cases hf

end Language

end BuildConstants
