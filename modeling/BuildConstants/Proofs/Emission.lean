import BuildConstants.Proofs.ScalarLegibility

/-!
# Emission of literals

A declaration succeeds if its name, its type and its initializer do. Values that conform to a
lossless type are always emitted, and no two of them share an initializer.
-/

namespace BuildConstants

open Literal Outcome ResolvedType

/-- The type of a declaration; null makes it nullable. -/
def Initial.adapt (initial : Initial) (t : ResolvedType) : ResolvedType :=
  if initial.isNull then t.withNullable true else t

theorem Dialect.emit_eq_ok_iff {d : Dialect} {c : Constant} {classes : ClassRegistry}
    {declaration : Declaration} : d.emit c classes = .ok declaration ↔
      ∃ name t text, d.identifier c.name = .ok name ∧ c.type.resolve classes = .ok t ∧
        d.initializer c.name (c.initial.adapt t) c.initial = .ok text ∧
        declaration = ⟨name, c.initial.adapt t, text,
          c.initial.isLiteral && !c.initial.isNull && t.isConstant⟩ := by
  have hemit : d.emit c classes = .ok declaration ↔ d.declaration c classes = .ok declaration := by
    rw [emit]
    split
    · rename_i heq
      rw [heq]
    · rename_i heq
      rw [heq]
      simp
  rw [hemit, Dialect.declaration]
  constructor
  · intro h
    obtain ⟨name, hname, h⟩ := bind_eq_ok_iff.mp h
    obtain ⟨t, ht, h⟩ := bind_eq_ok_iff.mp h
    obtain ⟨text, htext, h⟩ := bind_eq_ok_iff.mp h
    exact ⟨name, t, text, hname, ht, htext, (Except.ok.inj h).symm⟩
  · rintro ⟨name, t, text, hname, ht, htext, rfl⟩
    rw [Initial.adapt] at htext
    simp only [hname, ht, htext, ok_bind]
    rfl

theorem Dialect.initializer_literal_eq_ok_iff {d : Dialect} {name : String} {t : ResolvedType}
    {v : Tagged} {text : String} : d.initializer name t (.literal v) = .ok text ↔
      ∃ template, format d.style t v = .ok template ∧ template.count = v.flatten.length ∧
        render d.style template.text v.flatten = .ok text := by
  rw [initializer, bind_eq_ok_iff]
  constructor
  · rintro ⟨template, hformat, h⟩
    simp only [bne_iff_ne, ne_eq, ite_not] at h
    split at h
    · rename_i hcount
      exact ⟨template, hformat, hcount, h⟩
    · obtain ⟨typeName, -, h⟩ := bind_eq_ok_iff.mp h
      cases h
  · rintro ⟨template, hformat, hcount, hrender⟩
    refine ⟨template, hformat, ?_⟩
    simpa [hcount] using hrender

theorem WellTagged.fits {t : ResolvedType} {v : Tagged} (h : WellTagged t v) : Fits t v := by
  induction h with
  | scalar hk hd => exact .scalar _ _
  | @sequence t e he items hnull h ih =>
    rcases part?_eq_some he with ⟨k, n, rfl, rfl⟩ | ⟨ht, helement⟩
    · refine .primitiveArray k n fun v hv => ?_
      cases v with
      | null => cases hnull hv
      | scalar s => exact ⟨s, rfl⟩
      | tuple inner =>
        cases h _ hv (by simp) with
        | sequence he' hnull' h' => cases he'
    · refine .generic ht fun v hv => ?_
      rw [elementOrList, helement]
      by_cases hn : v = .null
      · subst hn
        exact .null _
      · exact ih v hv hn

namespace Language

/-- The initializer of a value that fits its type is its direct text. -/
theorem initializer_eq_print {l : Language} {t : ResolvedType} {v : Tagged} (hv : Fits t v)
    (h : l.Allows t) (name : String) :
    l.dialect.initializer name t (.literal v) = l.print t v := by
  obtain ⟨template, hformat, hprints⟩ := format_prints l.style_regular hv h.creates
  rw [Dialect.initializer, hformat]
  simp [hprints.count, hprints.render_eq, print]

theorem print_adapt (l : Language) (t : ResolvedType) (v : Tagged) :
    l.print ((Initial.literal v).adapt t) v = l.print t v := by
  cases v with
  | null => rw [print, print, Literal.print, Literal.print]
  | scalar s => rfl
  | tuple items => rfl

theorem allows_of_resolve {l : Language} {t : TypeExpr} {classes : ClassRegistry}
    {r : ResolvedType} (h : t.resolve classes = .ok r)
    (hq : l = .java → ∀ q ∈ r.classNames, PercentFree q) : l.Allows r where
  percentFree := hq
  creatable _ := Java.isCreatable_of_hasName r (t.hasName_of_resolve r h)

theorem isCreatable_withNullable (t : ResolvedType) (n : Bool) :
    Java.isCreatable (t.withNullable n) = Java.isCreatable t := by
  match t with
  | .array (some e) _ | .list (some e) _ | .set (some e) _ => rfl
  | .array none _ | .list none _ | .set none _ => rfl
  | .primitive .. | .string _ | .primitiveArray .. | .named .. => rfl

theorem classNames_adapt (initial : Initial) (t : ResolvedType) :
    (initial.adapt t).classNames = t.classNames := by
  rw [Initial.adapt]
  split
  · exact classNames_withNullable t true
  · rfl

theorem allows_adapt {l : Language} {t : ResolvedType} (h : l.Allows t) (initial : Initial) :
    l.Allows (initial.adapt t) where
  percentFree := by
    rw [classNames_adapt]
    exact h.percentFree
  creatable hl := by
    rw [Initial.adapt]
    split
    · rw [isCreatable_withNullable]
      exact h.creatable hl
    · exact h.creatable hl

/-- A literal that is null or tagged well is emitted as its direct text. -/
theorem emit_of_wellTagged (l : Language) {classes : ClassRegistry} {name quoted : String}
    (hname : l.dialect.identifier name = .ok quoted) {t : TypeExpr} {r : ResolvedType}
    (hr : t.resolve classes = .ok r) (hallows : l.Allows r) {v : Tagged}
    (hv : v ≠ .null → WellTagged r v) :
    ∃ declaration, l.dialect.emit ⟨name, t, .literal v⟩ classes = .ok declaration ∧
      l.print r v = .ok declaration.initializer := by
  have hprint : ∃ text, l.print r v = .ok text := by
    by_cases hn : v = .null
    · subst hn
      exact ⟨_, by rw [print, Literal.print]⟩
    · obtain ⟨text, htext, -⟩ := (hv hn).prints l.style_distinct hallows.creates
      exact ⟨text, htext⟩
  have hfits : Fits ((Initial.literal v).adapt r) v := by
    cases v with
    | null => exact .null _
    | scalar s => exact .scalar _ _
    | tuple items => exact (hv (by simp)).fits
  obtain ⟨text, htext⟩ := hprint
  have hinitializer : l.dialect.initializer name ((Initial.literal v).adapt r) (.literal v) =
      .ok text := by
    rw [initializer_eq_print hfits (allows_adapt hallows _), print_adapt, htext]
  have hemit := (Dialect.emit_eq_ok_iff (c := ⟨name, t, .literal v⟩)).mpr
    ⟨quoted, r, text, hname, hr, hinitializer, rfl⟩
  exact ⟨_, hemit, htext⟩

theorem emit_of_admits (l : Language) (classes : ClassRegistry) {name quoted : String}
    (hname : l.dialect.identifier name = .ok quoted) {t : TypeExpr} (ht : t.Lossless) :
    ∃ r, l.Allows r ∧ ∀ raw, t.Admits raw → ∃ v declaration,
      (v ≠ .null → WellTagged r v) ∧ v.content = raw ∧
      Constant.ofDatum name t raw = .ok ⟨name, t, .literal v⟩ ∧
      l.dialect.emit ⟨name, t, .literal v⟩ classes = .ok declaration ∧
      l.print r v = .ok declaration.initializer := by
  obtain ⟨base, hbase⟩ := ht.resolves classes
  obtain ⟨r, hr, hclass⟩ := hbase.result
  have hallows : l.Allows r := by
    refine allows_of_resolve hr fun _ q hq => ?_
    rw [hclass] at hq
    cases hq
  refine ⟨r, hallows, fun raw h => ?_⟩
  obtain ⟨v, hv, hwell, hcontent⟩ := h.tagged ht hr
  obtain ⟨declaration, hemit, hprint⟩ := l.emit_of_wellTagged hname hr hallows hwell
  exact ⟨v, declaration, hwell, hcontent, by simp [Constant.ofDatum, hv], hemit, hprint⟩

/-- Literals of lossless types are always emitted, and what is emitted tells them apart. -/
theorem emit_total_and_injective (l : Language) (classes : ClassRegistry) {name quoted : String}
    (hname : l.dialect.identifier name = .ok quoted) {t : TypeExpr} (ht : t.Lossless) :
    (∀ raw, t.Admits raw → ∃ c declaration, Constant.ofDatum name t raw = .ok c ∧
      l.dialect.emit c classes = .ok declaration) ∧
    ∀ raw raw', t.Admits raw → t.Admits raw' → ∀ c c' declaration declaration',
      Constant.ofDatum name t raw = .ok c → Constant.ofDatum name t raw' = .ok c' →
      l.dialect.emit c classes = .ok declaration → l.dialect.emit c' classes = .ok declaration' →
      declaration.initializer = declaration'.initializer → raw = raw' := by
  obtain ⟨r, hallows, hemits⟩ := l.emit_of_admits classes hname ht
  constructor
  · intro raw h
    obtain ⟨v, declaration, -, -, hconstant, hemit, -⟩ := hemits raw h
    exact ⟨_, declaration, hconstant, hemit⟩
  · intro raw raw' h h' c c' declaration declaration' hc hc' he he' htext
    obtain ⟨v, d, hwell, hcontent, hconstant, hemit, hprint⟩ := hemits raw h
    obtain ⟨v', d', hwell', hcontent', hconstant', hemit', hprint'⟩ := hemits raw' h'
    obtain rfl := Except.ok.inj (hconstant.symm.trans hc)
    obtain rfl := Except.ok.inj (hconstant'.symm.trans hc')
    obtain rfl := Except.ok.inj (hemit.symm.trans he)
    obtain rfl := Except.ok.inj (hemit'.symm.trans he')
    -- Equal texts come from equal tagged values, and the raw values are what these hold.
    have hlegible := WellTagged.legible_or_null l.style_distinct hallows.creates fun hn =>
      ⟨(hwell hn).legible l.style_distinct hallows.creates, hwell hn⟩
    rw [← htext] at hprint'
    rw [← hcontent, ← hcontent', hlegible.eq_of_text_eq hwell' hprint hprint']

theorem emit_total_and_injective_nested :
    kotlin.dialect.identifier "LIMITS" = .ok "LIMITS" ∧
    TypeExpr.Lossless ⟨"List", true, false, [⟨"long", false, true, []⟩]⟩ ∧
    TypeExpr.Admits ⟨"List", true, false, [⟨"long", false, true, []⟩]⟩
      (.list [.list [.int Kotlin.longMin, .null], .list []]) ∧
    ∃ c declaration,
      Constant.ofDatum "LIMITS" ⟨"List", true, false, [⟨"long", false, true, []⟩]⟩
        (.list [.list [.int Kotlin.longMin, .null], .list []]) = .ok c ∧
      kotlin.dialect.emit c .empty = .ok declaration := by
  have hlong : TypeExpr.Names ⟨"long", false, true, []⟩ .long := by decide
  have hlist (array : Bool) :
      TypeExpr.Names ⟨"List", array, false, [⟨"long", false, true, []⟩]⟩ .list := by
    cases array <;> decide
  have hlossless : TypeExpr.Lossless ⟨"List", true, false, [⟨"long", false, true, []⟩]⟩ :=
    .collection (hlist true) (.inl rfl) rfl (.scalar hlong rfl ⟨by decide, by decide⟩ rfl)
  have hinner : ∀ items : List Datum, (∀ d ∈ items, d ≠ .null → d = .int Kotlin.longMin) →
      TypeExpr.Conforms ⟨"List", false, false, [⟨"long", false, true, []⟩]⟩ (.list items) := by
    intro items h
    refine .collection rfl (hlist false) (.inl rfl) rfl (fun _ => rfl) fun d hd hn => ?_
    rw [h d hd hn]
    exact .integer rfl hlong (k := .long) rfl (by decide)
  have hadmits : TypeExpr.Admits ⟨"List", true, false, [⟨"long", false, true, []⟩]⟩
      (.list [.list [.int Kotlin.longMin, .null], .list []]) := by
    refine .inr (.array rfl (by simp) fun d hd _ => ?_)
    simp only [List.mem_cons, List.not_mem_nil, or_false] at hd
    rcases hd with rfl | rfl
    · exact hinner _ (by simp)
    · exact hinner _ (by simp)
  exact ⟨rfl, hlossless, hadmits,
    (emit_total_and_injective kotlin .empty rfl hlossless).1 _ hadmits⟩

end Language

end BuildConstants
