import BuildConstants.Proofs.Shape
import BuildConstants.Proofs.TemplateReading
import Mathlib.Data.List.Forall2

/-!
# Templates of two styles

Two outcomes agree if both are values, and related ones, or both are faults of one family. Styles
whose rules have the same holes give alike templates: the texts differ, the holes do not. Alike
templates are filled with the same verdict as soon as the styles have it on every argument.
-/

namespace BuildConstants

open Outcome

section Agree

variable {α β γ δ : Type} {R : α → β → Prop} {S : γ → δ → Prop}

/-- Related values on both sides, or faults of one family on both sides. -/
inductive Agree (R : α → β → Prop) : Except Fault α → Except Fault β → Prop
  | ok {a : α} {b : β} (h : R a b) : Agree R (.ok a) (.ok b)
  | error {e f : Fault} (h : e.family = f.family) : Agree R (.error e) (.error f)

/-- The same verdict on values that need not be related. -/
abbrev Concur (x : Except Fault α) (y : Except Fault β) : Prop :=
  Agree (fun _ _ => True) x y

namespace Agree

theorem refl {R : α → α → Prop} (hR : ∀ a, R a a) (x : Except Fault α) : Agree R x x := by
  cases x with
  | ok a => exact .ok (hR a)
  | error e => exact .error rfl

theorem ok_or_error {x : Except Fault α} {y : Except Fault β} (h : Agree R x y) :
    (∃ a b, x = .ok a ∧ y = .ok b ∧ R a b) ∨
      ∃ e f, x = .error e ∧ y = .error f ∧ e.family = f.family := by
  cases h with
  | ok h => exact .inl ⟨_, _, rfl, rfl, h⟩
  | error h => exact .inr ⟨_, _, rfl, rfl, h⟩

theorem mono {x : Except Fault α} {y : Except Fault β} (h : Agree R x y) {R' : α → β → Prop}
    (hR : ∀ a b, R a b → R' a b) : Agree R' x y := by
  cases h with
  | ok h => exact .ok (hR _ _ h)
  | error h => exact .error h

theorem bind {x : Except Fault α} {y : Except Fault β} (h : Agree R x y)
    {f : α → Except Fault γ} {g : β → Except Fault δ}
    (hfg : ∀ a b, R a b → Agree S (f a) (g b)) : Agree S (x >>= f) (y >>= g) := by
  cases h with
  | ok h => exact hfg _ _ h
  | error h => exact .error h

theorem collect {ε : Type} {as : List ε} {f : ε → Except Fault α} {g : ε → Except Fault β}
    (h : ∀ a ∈ as, Agree R (f a) (g a)) :
    Agree (List.Forall₂ R) (collect f as) (collect g as) := by
  induction as with
  | nil => exact .ok .nil
  | cons a rest ih =>
    have hrest := ih fun b hb => h b (List.mem_cons_of_mem a hb)
    refine (h a List.mem_cons_self).bind fun b c hbc => ?_
    refine hrest.bind fun bs cs hall => ?_
    exact .ok (.cons hbc hall)

end Agree

namespace Concur

variable {x : Except Fault α} {y : Except Fault β} {z : Except Fault γ}

theorem symm (h : Concur x y) : Concur y x := by
  cases h with
  | ok _ => exact .ok trivial
  | error h => exact .error h.symm

theorem trans (hxy : Concur x y) (hyz : Concur y z) : Concur x z := by
  cases hxy with
  | ok _ =>
    cases hyz with
    | ok _ => exact .ok trivial
  | error h =>
    cases hyz with
    | error h' => exact .error (h.trans h')

theorem map (h : Concur x y) (f : α → γ) (g : β → δ) :
    Concur (x >>= fun a => .ok (f a)) (y >>= fun b => .ok (g b)) :=
  h.bind fun _ _ _ => .ok trivial

end Concur

end Agree

namespace Literal

open Template (Brackets)

/-- The holes of a template in order. -/
def Template.marks (t : Template) : List Hole :=
  (pieces t.text.toList).filterMap Piece.hole?

theorem Template.marks_append {t u : Template} (h : Closed t.text.toList) (n : Nat) :
    Template.marks ⟨t.text ++ u.text, n⟩ = t.marks ++ u.marks := by
  simp [Template.marks, h u.text.toList]

theorem Template.marks_of_percentFree {s : String} (h : PercentFree s) (n : Nat) :
    Template.marks ⟨s, n⟩ = [] := by
  simp [Template.marks, pieces_percentFree h, Piece.hole?]

theorem Template.marks_hole (h : Hole) (n : Nat) :
    Template.marks ⟨String.ofList h.mark, n⟩ = [h] := by
  have hpieces : pieces h.mark = [.hole h] := by simpa [pieces] using pieces_mark_append h []
  simp [Template.marks, hpieces, Piece.hole?]

/-- Texts with the same holes in the same order, which both templates count. -/
structure Alike (t u : Template) : Prop where
  closed : Closed t.text.toList ∧ Closed u.text.toList
  marks : t.marks = u.marks
  count : t.count = t.marks.length ∧ u.count = u.marks.length

namespace Alike

variable {t t' u u' : Template}

theorem text {s s' : String} (hs : PercentFree s) (hs' : PercentFree s') :
    Alike ⟨s, 0⟩ ⟨s', 0⟩ where
  closed := ⟨closed_percentFree hs, closed_percentFree hs'⟩
  marks := by rw [Template.marks_of_percentFree hs, Template.marks_of_percentFree hs']
  count := by rw [Template.marks_of_percentFree hs, Template.marks_of_percentFree hs']; simp

theorem hole (h : Hole) : Alike ⟨String.ofList h.mark, 1⟩ ⟨String.ofList h.mark, 1⟩ where
  closed := by
    rw [String.toList_ofList]
    exact ⟨closed_mark h, closed_mark h⟩
  marks := rfl
  count := by rw [Template.marks_hole]; exact ⟨rfl, rfl⟩

theorem append (h : Alike t u) (h' : Alike t' u') :
    Alike ⟨t.text ++ t'.text, t.count + t'.count⟩ ⟨u.text ++ u'.text, u.count + u'.count⟩ where
  closed := by
    rw [String.toList_append, String.toList_append]
    exact ⟨h.closed.1.append h'.closed.1, h.closed.2.append h'.closed.2⟩
  marks := by
    rw [Template.marks_append h.closed.1, Template.marks_append h.closed.2, h.marks, h'.marks]
  count := by
    rw [Template.marks_append h.closed.1, Template.marks_append h.closed.2]
    simp [h.count, h'.count]

theorem intercalate {separator separator' : String} (hs : PercentFree separator)
    (hs' : PercentFree separator') {ts us : List Template} (h : List.Forall₂ Alike ts us) :
    Alike ⟨String.intercalate separator (ts.map (·.text)), total ts⟩
      ⟨String.intercalate separator' (us.map (·.text)), total us⟩ := by
  induction h with
  | nil => exact text (by simp [PercentFree]) (by simp [PercentFree])
  | cons ht hts ih =>
    cases hts with
    | nil => simpa [total] using ht
    | cons ht' hts' =>
      have hrest := ht.append ((text hs hs').append ih)
      simpa [total, String.append_assoc] using hrest

theorem join {separator separator' : String} (hs : PercentFree separator)
    (hs' : PercentFree separator') {b b' : Brackets} (hb : b.PercentFree) (hb' : b'.PercentFree)
    {ts us : List Template} (h : List.Forall₂ Alike ts us) :
    Alike (Template.join separator b ts) (Template.join separator' b' us) := by
  have hopening := text hb.opening hb'.opening
  have hclosing := text hb.closing hb'.closing
  have hall := hopening.append ((intercalate hs hs' h).append hclosing)
  simpa [Template.join, total, String.append_assoc] using hall

end Alike

/-- Regular styles whose rules have the same holes. -/
structure Style.Parallel (style style' : Style) (form form' : ScalarKind → Form) : Prop where
  left : style.Regular form
  right : style'.Regular form'
  hole : ∀ k, (form k).hole = (form' k).hole

section Parallel

variable {style style' : Style} {form form' : ScalarKind → Form}

namespace Style.Parallel

theorem null (h : style.Parallel style' form form') : Alike ⟨style.null, 0⟩ ⟨style'.null, 0⟩ :=
  .text h.left.null h.right.null

theorem scalar (h : style.Parallel style' form form') (k : ScalarKind) :
    Alike (style.scalar k) (style'.scalar k) := by
  have hbefore := Alike.text (h.left.before k) (h.right.before k)
  have hafter := Alike.text (h.left.after k) (h.right.after k)
  have hall := (hbefore.append (.hole (form k).hole)).append hafter
  rw [h.left.scalar_eq, h.right.scalar_eq]
  simpa [Form.text, h.hole k] using hall

theorem join (h : style.Parallel style' form form') {b b' : Brackets} (hb : b.PercentFree)
    (hb' : b'.PercentFree) {ts us : List Template} (hts : List.Forall₂ Alike ts us) :
    Alike (Template.join style.separator b ts) (Template.join style'.separator b' us) :=
  .join h.left.separator h.right.separator hb hb' hts

/-- Both styles refuse a value for the same reason, or give alike templates. -/
theorem format_agree (h : style.Parallel style' form form') (v : Tagged) :
    ∀ {t : ResolvedType}, style.Creates t → style'.Creates t →
      Agree Alike (format style t v) (format style' t v) := by
  induction v using Tagged.induction with
  | null =>
    intro t hc hc'
    exact .ok h.null
  | scalar s =>
    intro t hc hc'
    have hsingle (k : ScalarKind) :
        List.Forall₂ Alike [style.scalar k] [style'.scalar k] := .cons (h.scalar k) .nil
    cases t with
    | primitive k n => exact .ok (h.scalar k)
    | string n => exact .ok (h.scalar .string)
    | named q as c n => exact .ok (h.scalar s.kind)
    | primitiveArray k n =>
      exact .ok (h.join (h.left.primitiveArray k) (h.right.primitiveArray k) (hsingle k))
    | array e n =>
      obtain ⟨b, hb, hfree⟩ := hc.array
      obtain ⟨b', hb', hfree'⟩ := hc'.array
      rw [format, format, hb, hb']
      exact .ok (h.join hfree hfree' (hsingle s.kind))
    | list e n => exact .ok (h.join h.left.list h.right.list (hsingle s.kind))
    | set e n => exact .ok (h.join h.left.set h.right.set (hsingle s.kind))
  | tuple items ih =>
    intro t hc hc'
    have helement : ∀ v ∈ items,
        Agree Alike (formatElement style t.element? v) (formatElement style' t.element? v) := by
      intro v hv
      cases v with
      | null => exact .ok h.null
      | scalar s => exact .ok (h.scalar s.kind)
      | tuple inner =>
        simp only [formatElement]
        split
        · exact ih _ hv hc.elementOrList hc'.elementOrList
        · exact .ok (.hole .plain)
    have hitems : Agree (List.Forall₂ Alike) (formatItems style t.element? items)
        (formatItems style' t.element? items) := by
      rw [formatItems_eq_collect, formatItems_eq_collect]
      exact Agree.collect helement
    cases t with
    | primitive k n => exact .ok (h.scalar k)
    | string n => exact .ok (h.scalar .string)
    | named q as c n => exact .ok (.hole .plain)
    | primitiveArray k n =>
      rw [format, format]
      split
      · exact .error rfl
      · refine .ok (h.join (h.left.primitiveArray k) (h.right.primitiveArray k) ?_)
        rw [List.forall₂_map_left_iff, List.forall₂_map_right_iff]
        exact List.forall₂_same.mpr fun _ _ => h.scalar k
    | array e n =>
      obtain ⟨b, hb, hfree⟩ := hc.array
      obtain ⟨b', hb', hfree'⟩ := hc'.array
      rw [format, format, hb, hb']
      exact hitems.bind fun _ _ hparts => .ok (h.join hfree hfree' hparts)
    | list e n => exact hitems.bind fun _ _ hparts => .ok (h.join h.left.list h.right.list hparts)
    | set e n => exact hitems.bind fun _ _ hparts => .ok (h.join h.left.set h.right.set hparts)

end Style.Parallel

/-- With an argument for every hole, filling fails where spelling the arguments in order does. -/
theorem fill_concur (style : Style) (template : String) {ps : List Piece} {args : List Scalar}
    (h : (ps.filterMap Piece.hole?).length = args.length) (consumed : Nat) :
    Concur (fill style template consumed ps args)
      (collect (fun a => spell style a.1 a.2) ((ps.filterMap Piece.hole?).zip args)) := by
  have hlength : args.length = holes ps := by rw [← h, length_filterMap_hole]
  have hsame : Concur (spellings style ps args) (spellings style ps args) :=
    .refl (fun _ => trivial) _
  have hall := hsame.map (assemble ps) fun texts => texts
  rwa [bind_ok, ← fill_of_length hlength] at hall

theorem render_concur {t u : Template} (h : Alike t u) {args : List Scalar}
    (hargs : t.count = args.length)
    (hspell : ∀ k, ∀ s ∈ args, Concur (spell style k s) (spell style' k s)) :
    Concur (render style t.text args) (render style' u.text args) := by
  have hleft : t.marks.length = args.length := h.count.1.symm.trans hargs
  have hright : u.marks.length = args.length := h.marks ▸ hleft
  have hmiddle : Concur (collect (fun a => spell style a.1 a.2) (t.marks.zip args))
      (collect (fun a => spell style' a.1 a.2) (u.marks.zip args)) := by
    rw [h.marks]
    have hall : ∀ a ∈ u.marks.zip args, Concur (spell style a.1 a.2) (spell style' a.1 a.2) := by
      intro a ha
      exact hspell a.1 a.2 (List.of_mem_zip ha).2
    exact (Agree.collect hall).mono fun _ _ _ => trivial
  have hfill := (fill_concur style t.text hleft 0).trans
    (hmiddle.trans (fill_concur style' u.text hright 0).symm)
  exact hfill.map String.ofList String.ofList

end Parallel

end Literal

end BuildConstants
