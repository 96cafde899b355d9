import BuildConstants.Proofs.BracketWeight

/-!
# Boxed scalars

Inside of a sequence a scalar may stand for itself or, if its place is one of a sequence type, in a
sequence of its own. The two are written with different brackets, and brackets outweigh whatever a
cast or another kind adds to the scalar. So the two never have one text.
-/

namespace BuildConstants

open Literal Outcome ResolvedType

/-- A scalar and what a declared type makes of it. Only its own kind makes it a byte or short. -/
structure Scalar.Retagged (s s' : Scalar) : Prop where
  weight : argumentWeight s = argumentWeight s'
  kind : s.kind = s'.kind ∨ s.kind ≠ .byte ∧ s.kind ≠ .short

theorem Scalar.Retagged.refl (s : Scalar) : s.Retagged s :=
  ⟨rfl, .inl rfl⟩

namespace Literal

/-- One scalar at a place of a sequence type becomes a sequence of this scalar. -/
inductive Boxed : ResolvedType → Tagged → Tagged → Prop
  | here {t : ResolvedType} (ht : t.isSequence = true) {s s' : Scalar} (h : s.Retagged s') :
      Boxed t (.scalar s) (.tuple [.scalar s'])
  | element {t : ResolvedType} (ht : t.isGeneric = true) {front back : List Tagged} {v v' : Tagged}
      (h : Boxed t.elementOrList v v') :
      Boxed t (.tuple (front ++ v :: back)) (.tuple (front ++ v' :: back))

theorem Boxed.isSequence {t : ResolvedType} {v v' : Tagged} (h : Boxed t v v') :
    t.isSequence = true := by
  cases h with
  | here ht h => exact ht
  | element ht h => exact isSequence_of_isGeneric ht

theorem Boxed.argumentsWeight_eq {t : ResolvedType} {v v' : Tagged} (h : Boxed t v v') :
    argumentsWeight v.flatten = argumentsWeight v'.flatten := by
  induction h with
  | here ht h => simp [Tagged.flatten, h.weight]
  | element ht h ih => simpa [Tagged.flatten] using ih

theorem formatElement_getD (style : Style) (e : Option ResolvedType) (v : Tagged) :
    formatElement style (some (e.getD (.list none false))) v = formatElement style e v := by
  cases v <;> rfl

theorem formatElement_tuple {style : Style} {t : ResolvedType} (ht : t.isSequence = true)
    (items : List Tagged) :
    formatElement style (some t) (.tuple items) = format style t (.tuple items) := by
  simp [formatElement, ht]

/-- A container of one scalar and the scalar by itself have one template. -/
theorem format_single {style : Style} {t : ResolvedType} (ht : t.isSequence = true) (s : Scalar) :
    format style t (.tuple [.scalar s]) = format style t (.scalar s) := by
  cases t with
  | primitive k n | string n | named q as c n => cases ht
  | primitiveArray k n | array e n | list e n | set e n => rfl

end Literal

namespace Language

variable (l : Language)

theorem closed_of_formatElement {e : Option ResolvedType} {v : Tagged} {part : Template}
    (h : formatElement l.dialect.style e v = .ok part) : Closed part.text.toList :=
  (carries_of_formatElement l.style_regular
    (fun hformat => format_carries l.style_regular l.style_opens hformat) h).closed

theorem closed_opening {t : ResolvedType} {b : Template.Brackets}
    (h : l.dialect.style.brackets t = .ok b) : Closed b.opening.toList :=
  (carries_brackets l.style_regular l.style_opens h).1.closed

theorem closed_separator : Closed l.dialect.style.separator.toList :=
  closed_percentFree l.style_regular.separator

theorem textWeight_single {t : ResolvedType} {b : Template.Brackets}
    (hb : l.dialect.style.brackets t = .ok b) (k : ScalarKind) :
    textWeight b.opening + textWeight (l.dialect.style.scalar k).text ≤
      textWeight (Template.join l.dialect.style.separator b [l.dialect.style.scalar k]).text := by
  have hpart : Closed (l.dialect.style.scalar k).text.toList :=
    (l.style_regular.scalar_carries k).closed
  rw [textWeight_join l.closed_separator (l.closed_opening hb)
    (List.forall_mem_singleton.mpr hpart)]
  simp

/-- The brackets around a scalar that stands by itself weigh more than a cast in front of it. -/
theorem textWeight_lt_of_here {t : ResolvedType} (ht : t.isSequence = true) {s s' : Scalar}
    (h : s.Retagged s') {template : Template}
    (hformat : format l.dialect.style t (.scalar s') = .ok template) :
    textWeight (l.dialect.style.scalar s.kind).text < textWeight template.text := by
  have hgeneric {t : ResolvedType} (ht : t.isGeneric = true) {b : Template.Brackets}
      (hb : l.dialect.style.brackets t = .ok b) :
      textWeight (l.dialect.style.scalar s.kind).text < textWeight
        (Template.join l.dialect.style.separator b [l.dialect.style.scalar s'.kind]).text := by
    have hsingle := l.textWeight_single hb s'.kind
    have hpositive := l.textWeight_brackets_pos ht hb
    obtain hkind | hkind := h.kind
    · rw [hkind]
      omega
    · rw [l.textWeight_scalar hkind]
      omega
  cases t with
  | primitive k n | string n | named q as c n => cases ht
  | primitiveArray k n =>
    obtain rfl := Except.ok.inj hformat
    have hsingle := l.textWeight_single (t := .primitiveArray k n) rfl k
    have hscalar := l.textWeight_scalar_le s.kind
    have hopening := l.castWeight_lt_primitiveArray k
    omega
  | array e n =>
    obtain ⟨b, hb, hformat⟩ := bind_eq_ok_iff.mp hformat
    obtain rfl := Except.ok.inj hformat
    exact hgeneric (t := .array e n) rfl hb
  | list e n =>
    obtain rfl := Except.ok.inj hformat
    exact hgeneric (t := .list e n) rfl rfl
  | set e n =>
    obtain rfl := Except.ok.inj hformat
    exact hgeneric (t := .set e n) rfl rfl

theorem textWeight_lt_of_boxed {t : ResolvedType} {v v' : Tagged} (h : Boxed t v v') :
    ∀ {part part' : Template}, formatElement l.dialect.style (some t) v = .ok part →
      formatElement l.dialect.style (some t) v' = .ok part' →
      textWeight part.text < textWeight part'.text := by
  induction h with
  | @here t ht s s' h =>
    intro part part' hpart hpart'
    obtain rfl := Except.ok.inj hpart
    rw [formatElement_tuple ht, format_single ht] at hpart'
    exact l.textWeight_lt_of_here ht h hpart'
  | @element t ht front back v v' h ih =>
    intro part part' hpart hpart'
    rw [formatElement_tuple (isSequence_of_isGeneric ht)] at hpart hpart'
    obtain ⟨parts, b, hparts, hb, rfl⟩ := format_generic ht hpart
    obtain ⟨parts', b', hparts', hb', rfl⟩ := format_generic ht hpart'
    obtain rfl := Except.ok.inj (hb.symm.trans hb')
    have hclosed : ∀ part ∈ parts, Closed part.text.toList := by
      intro part hmem
      obtain ⟨w, -, hw⟩ := exists_item_of_collect hparts hmem
      exact l.closed_of_formatElement hw
    obtain ⟨front₁, p, back₁, hfront, hp, hback, rfl⟩ := collect_append_cons hparts
    obtain ⟨front₂, p', back₂, hfront', hp', hback', rfl⟩ := collect_append_cons hparts'
    obtain rfl := Except.ok.inj (hfront.symm.trans hfront')
    obtain rfl := Except.ok.inj (hback.symm.trans hback')
    have hlt : textWeight p.text < textWeight p'.text := by
      apply ih
      · rw [elementOrList, formatElement_getD]
        exact hp
      · rw [elementOrList, formatElement_getD]
        exact hp'
    exact textWeight_join_lt l.closed_separator (l.closed_opening hb) hclosed
      (l.closed_of_formatElement hp') hlt

/-- The brackets of the new sequence show in the initializer. -/
theorem initializer_ne_of_boxed {t : ResolvedType} {v v' : Tagged} (h : Boxed t v v')
    (hsequence : ∀ s, v ≠ .scalar s) {name text : String}
    (htext : l.dialect.initializer name t (.literal v) = .ok text) :
    l.dialect.initializer name t (.literal v') ≠ .ok text := by
  intro htext'
  obtain ⟨template, hformat, -, hrender⟩ := Dialect.initializer_literal_eq_ok_iff.mp htext
  obtain ⟨template', hformat', -, hrender'⟩ := Dialect.initializer_literal_eq_ok_iff.mp htext'
  have hlt : textWeight template.text < textWeight template'.text := by
    cases h with
    | here ht h => exact absurd rfl (hsequence _)
    | element ht h =>
      rw [← formatElement_tuple (isSequence_of_isGeneric ht)] at hformat hformat'
      exact l.textWeight_lt_of_boxed (.element ht h) hformat hformat'
  have hweight := weight_of_render hrender
  rw [weight_of_render hrender', h.argumentsWeight_eq] at hweight
  omega

end Language

end BuildConstants
