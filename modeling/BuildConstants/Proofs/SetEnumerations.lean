import Mathlib.Data.List.Perm.Basic
import Mathlib.Data.String.Basic
import BuildConstants.Proofs.ProperTypes
import BuildConstants.Proofs.ReadingFaults
import BuildConstants.Proofs.WrittenElements

/-!
# Enumerations of sets

The elements of a set may be enumerated in any order, and so may those of the sets among them.
The order in which a set is tagged does not depend on its own enumeration, for different elements
never share sort and written form. But a frozen set is written as it is enumerated, so the order
of the elements around it may depend on its enumeration.
-/

namespace BuildConstants

open Outcome

section Sorting

variable {α β : Type} {r : α → α → Prop} {f : α → β}

/-- Rearranged lists show the same images if those with different images stand in one order. -/
theorem map_eq_of_perm {l₁ l₂ : List α} (hp : l₁.Perm l₂)
    (h₁ : l₁.Pairwise fun a b => f a = f b ∨ r a b) (h₂ : l₂.Pairwise fun a b => f a = f b ∨ r a b)
    (hr : ∀ a ∈ l₁, ∀ b ∈ l₁, r a b → r b a → f a = f b) : l₁.map f = l₂.map f := by
  induction l₁ generalizing l₂ with
  | nil => rw [hp.nil_eq]
  | cons a l₁ ih =>
    obtain ⟨front, back, rfl⟩ := List.append_of_mem (hp.subset List.mem_cons_self)
    have hrest : l₁.Perm (front ++ back) :=
      List.Perm.cons_inv (hp.trans List.perm_middle)
    obtain ⟨ha, h₁⟩ := List.pairwise_cons.mp h₁
    -- What has moved in front of the head has its image.
    have hfront : ∀ c ∈ front, f c = f a := by
      intro c hc
      have hmem : c ∈ l₁ := hrest.mem_iff.mpr (List.mem_append_left _ hc)
      rcases (List.pairwise_append.mp h₂).2.2 c hc a List.mem_cons_self with heq | hca
      · exact heq
      · rcases ha c hmem with heq | hac
        · exact heq.symm
        · exact (hr a List.mem_cons_self c (List.mem_cons_of_mem a hmem) hac hca).symm
    have htail := ih hrest h₁ (h₂.sublist (by simp))
      fun b hb c hc => hr b (List.mem_cons_of_mem a hb) c (List.mem_cons_of_mem a hc)
    have hshift : front.map f ++ [f a] = f a :: front.map f := by
      have hconst : front.map f = List.replicate front.length (f a) :=
        List.map_eq_replicate_iff.mpr hfront
      rw [hconst, ← List.replicate_succ', List.replicate_succ]
    calc (a :: l₁).map f = (f a :: front.map f) ++ back.map f := by simp [htail]
      _ = (front ++ a :: back).map f := by rw [← hshift]; simp

/-- A list that begins and ends alike around the same elements consists of one element. -/
theorem eq_of_shift {a b : β} {l rest : List β} (h : a :: (l ++ rest) = l ++ b :: rest) :
    ∀ c ∈ l, c = a := by
  induction l generalizing a with
  | nil => nofun
  | cons d l ih =>
    obtain ⟨rfl, h⟩ := List.cons.inj h
    exact List.forall_mem_cons.mpr ⟨rfl, ih h⟩

theorem eq_of_cons_perm_cons {a b : β} {l : List β} (h : (a :: l).Perm (b :: l)) : a = b := by
  classical
  by_contra hne
  have hcount := h.count_eq a
  simp [Ne.symm hne] at hcount

/-- An element that moves back past some others keeps its order to those with another image. -/
theorem order_of_moved {x x' : α} {front passed back : List α}
    (h : (front ++ x :: (passed ++ back)).Pairwise r)
    (h' : ((front ++ passed) ++ x' :: back).Pairwise r)
    (hf : (front ++ x :: (passed ++ back)).map f = ((front ++ passed) ++ x' :: back).map f) :
    ∀ y ∈ front ++ (passed ++ back), f y ≠ f x → (r x y ∧ r x' y) ∨ (r y x ∧ r y x') := by
  have hshift : f x :: (passed.map f ++ back.map f) = passed.map f ++ f x' :: back.map f := by
    simpa using hf
  have hpassed : ∀ c ∈ passed, f c = f x := fun c hc =>
    eq_of_shift hshift _ (List.mem_map_of_mem hc)
  intro y hy hne
  rcases List.mem_append.mp hy with hy | hy
  · refine .inr ⟨(List.pairwise_append.mp h).2.2 y hy x List.mem_cons_self, ?_⟩
    exact (List.pairwise_append.mp h').2.2 y (List.mem_append_left _ hy) x' List.mem_cons_self
  · rcases List.mem_append.mp hy with hy | hy
    · exact absurd (hpassed y hy) hne
    · have hx := (List.pairwise_cons.mp (List.pairwise_append.mp h).2.1).1
      have hx' := (List.pairwise_cons.mp (List.pairwise_append.mp h').2.1).1
      exact .inl ⟨hx y (List.mem_append_right _ hy), hx' y hy⟩

/-- Wherever one element of a sorted list moves to, if the list shows the same images, the element
keeps its order to those with another image. -/
theorem order_of_replaced {x x' : α} {front back front' back' : List α}
    (h : (front ++ x :: back).Pairwise r) (h' : (front' ++ x' :: back').Pairwise r)
    (hrest : front ++ back = front' ++ back') (hx : f x = f x')
    (hf : (front ++ x :: back).map f = (front' ++ x' :: back').map f) :
    ∀ y ∈ front ++ back, f y ≠ f x → (r x y ∧ r x' y) ∨ (r y x ∧ r y x') := by
  rcases List.append_eq_append_iff.mp hrest with ⟨passed, rfl, rfl⟩ | ⟨passed, rfl, rfl⟩
  · exact order_of_moved h h' hf
  · intro y hy hne
    rw [List.append_assoc] at hy
    rw [hx] at hne
    exact (order_of_moved h' h hf.symm y hy hne).imp And.symm And.symm

end Sorting

namespace Datum

/-- The same datum, in which the sets may be enumerated in another order. -/
inductive Same : Datum → Datum → Prop
  | refl (d : Datum) : Same d d
  | tuple {items others : List Datum} (h : List.Forall₂ Same items others) :
      Same (.tuple items) (.tuple others)
  | set {items mid others : List Datum} (h : List.Forall₂ Same items mid) (hp : mid.Perm others) :
      Same (.set items) (.set others)
  | frozenSet {items mid others : List Datum} (h : List.Forall₂ Same items mid)
      (hp : mid.Perm others) : Same (.frozenSet items) (.frozenSet others)

/-- A set or a frozen set that is enumerated like this. -/
def IsSetOf (d : Datum) (items : List Datum) : Prop :=
  d = .set items ∨ d = .frozenSet items

variable {d d' d'' : Datum} {items mid others : List Datum}

theorem same_items (items : List Datum) : List.Forall₂ Same items items :=
  List.forall₂_same.mpr fun x _ => .refl x

theorem Same.exists_items (h : Same d d') (hd : d.IsSetOf items) :
    ∃ mid others, List.Forall₂ Same items mid ∧ mid.Perm others ∧ d'.IsSetOf others := by
  rcases hd with rfl | rfl
  · cases h with
    | refl => exact ⟨items, items, same_items items, .refl _, .inl rfl⟩
    | set h hp => exact ⟨_, _, h, hp, .inl rfl⟩
  · cases h with
    | refl => exact ⟨items, items, same_items items, .refl _, .inr rfl⟩
    | frozenSet h hp => exact ⟨_, _, h, hp, .inr rfl⟩

theorem IsSetOf.exists_same (hd : d.IsSetOf items) (h : List.Forall₂ Same items mid)
    (hp : mid.Perm others) : ∃ d', Same d d' ∧ d'.IsSetOf others := by
  rcases hd with rfl | rfl
  · exact ⟨_, .set h hp, .inl rfl⟩
  · exact ⟨_, .frozenSet h hp, .inr rfl⟩

theorem IsSetOf.elements?_eq (hd : d.IsSetOf items) : d.elements? = some items := by
  rcases hd with rfl | rfl <;> rfl

theorem Same.typeName_eq (h : Same d d') : d'.typeName = d.typeName := by
  cases h <;> rfl

theorem exists_left_of_forall₂ (h : List.Forall₂ Same items others) :
    ∀ y ∈ others, ∃ x ∈ items, Same x y :=
  TypeExpr.exists_right_of_forall₂ h.flip

theorem Element.of_same (hd : Element d) (h : Same d d') : Element d' := by
  induction hd generalizing d' with
  | bool b =>
    cases h
    exact .bool b
  | int n =>
    cases h
    exact .int n
  | text s =>
    cases h
    exact .text s
  | tuple hitems ih =>
    cases h with
    | refl => exact .tuple hitems
    | tuple h =>
      refine .tuple fun y hy => ?_
      obtain ⟨x, hx, hxy⟩ := exists_left_of_forall₂ h y hy
      exact ih x hx hxy
  | frozenSet hitems ih =>
    cases h with
    | refl => exact .frozenSet hitems
    | frozenSet h hp =>
      refine .frozenSet fun y hy => ?_
      obtain ⟨x, hx, hxy⟩ := exists_left_of_forall₂ h y (hp.mem_iff.mpr hy)
      exact ih x hx hxy

theorem elements_of_same (hi : ∀ x ∈ items, Element x) (h : List.Forall₂ Same items mid)
    (hp : mid.Perm others) : ∀ y ∈ others, Element y := by
  intro y hy
  obtain ⟨x, hx, hxy⟩ := exists_left_of_forall₂ h y (hp.mem_iff.mpr hy)
  exact (hi x hx).of_same hxy

theorem same_items_trans (ih : ∀ x ∈ items, ∀ {x' x''}, Same x x' → Same x' x'' → Same x x'')
    (h : List.Forall₂ Same items mid) (h' : List.Forall₂ Same mid others) :
    List.Forall₂ Same items others := by
  induction h generalizing others with
  | nil =>
    cases h'
    exact .nil
  | cons hxy _ ihrest =>
    cases h' with
    | cons hyz hrest =>
      obtain ⟨ihx, ih⟩ := List.forall_mem_cons.mp ih
      exact .cons (ihx hxy hyz) (ihrest ih hrest)

theorem Same.trans (h : Same d d') (h' : Same d' d'') : Same d d'' := by
  induction d using Datum.elementInduction generalizing d' d'' with
  | sequence d items hd ih =>
    cases h with
    | refl => exact h'
    | tuple h =>
      obtain rfl := Option.some.inj hd
      cases h' with
      | refl => exact .tuple h
      | tuple h' => exact .tuple (same_items_trans ih h h')
    | set h hp =>
      obtain rfl := Option.some.inj hd
      cases h' with
      | refl => exact .set h hp
      | set h' hp' =>
        obtain ⟨mid, hmid, hperm⟩ := List.perm_comp_forall₂ hp h'
        exact .set (same_items_trans ih h hmid) (hperm.trans hp')
    | frozenSet h hp =>
      obtain rfl := Option.some.inj hd
      cases h' with
      | refl => exact .frozenSet h hp
      | frozenSet h' hp' =>
        obtain ⟨mid, hmid, hperm⟩ := List.perm_comp_forall₂ hp h'
        exact .frozenSet (same_items_trans ih h hmid) (hperm.trans hp')
  | single d hd =>
    cases h with
    | refl => exact h'
    | tuple | set | frozenSet => cases hd

end Datum

section Order

open Datum

variable {a b c : Datum} {items others : List Datum}

theorem setOrder_iff : setOrder a b = true ↔
    a.typeName < b.typeName ∨ a.typeName = b.typeName ∧ a.written ≤ b.written := by
  simp only [setOrder, Bool.or_eq_true, Bool.and_eq_true, decide_eq_true_eq, beq_iff_eq,
    Bool.not_eq_true', decide_eq_false_iff_not, not_lt]

theorem setOrder_total (a b : Datum) : (setOrder a b || setOrder b a) = true := by
  rw [Bool.or_eq_true, setOrder_iff, setOrder_iff]
  rcases lt_trichotomy a.typeName b.typeName with h | h | h
  · exact .inl (.inl h)
  · rcases le_total a.written b.written with hle | hle
    · exact .inl (.inr ⟨h, hle⟩)
    · exact .inr (.inr ⟨h.symm, hle⟩)
  · exact .inr (.inl h)

theorem setOrder_trans (a b c : Datum) (hab : setOrder a b = true) (hbc : setOrder b c = true) :
    setOrder a c = true := by
  rw [setOrder_iff] at hab hbc ⊢
  rcases hab with hab | ⟨hab, hle⟩
  · rcases hbc with hbc | ⟨hbc, -⟩
    · exact .inl (hab.trans hbc)
    · exact .inl (hbc ▸ hab)
  · rcases hbc with hbc | ⟨hbc, hle'⟩
    · exact .inl (hab ▸ hbc)
    · exact .inr ⟨hab.trans hbc, hle.trans hle'⟩

theorem setOrder_antisymm (ha : Element a) (hb : Element b) (hab : setOrder a b = true)
    (hba : setOrder b a = true) : a = b := by
  rw [setOrder_iff] at hab hba
  rcases hab with hab | ⟨hab, hle⟩
  · rcases hba with hba | ⟨hba, -⟩
    · exact absurd hba (lt_asymm hab)
    · exact absurd hba hab.ne'
  · rcases hba with hba | ⟨-, hle'⟩
    · exact absurd hab hba.ne'
    · exact ha.written_inj hb (le_antisymm hle hle')

theorem setOrder_flip (ha : Element a) (hb : Element b) (hne : a ≠ b) :
    setOrder a b = !setOrder b a := by
  cases hab : setOrder a b with
  | false =>
    have htotal := setOrder_total a b
    rw [hab, Bool.false_or] at htotal
    rw [htotal]
    rfl
  | true =>
    cases hba : setOrder b a with
    | false => rfl
    | true => exact absurd (setOrder_antisymm ha hb hab hba) hne

theorem pairwise_sorted_by {α : Type} (key : α → Datum) (l : List α) :
    (l.mergeSort fun a b => setOrder (key a) (key b)).Pairwise
      fun a b => setOrder (key a) (key b) = true := by
  apply List.pairwise_mergeSort
  · exact fun a b c => setOrder_trans (key a) (key b) (key c)
  · exact fun a b => setOrder_total (key a) (key b)

theorem pairwise_sorted (items : List Datum) :
    (items.mergeSort setOrder).Pairwise fun a b => setOrder a b = true :=
  pairwise_sorted_by id items

/-- Sorting elements forgets the order in which they are enumerated. -/
theorem sorted_eq_of_perm (hi : ∀ x ∈ items, Element x) (hp : items.Perm others) :
    items.mergeSort setOrder = others.mergeSort setOrder := by
  have hperm : (items.mergeSort setOrder).Perm (others.mergeSort setOrder) :=
    (List.mergeSort_perm _ _).trans (hp.trans (List.mergeSort_perm _ _).symm)
  have hantisymm : ∀ a b, a ∈ items.mergeSort setOrder → b ∈ others.mergeSort setOrder →
      setOrder a b = true → setOrder b a = true → a = b := by
    intro a b ha hb
    rw [List.mem_mergeSort] at ha hb
    exact setOrder_antisymm (hi a ha) (hi b (hp.mem_iff.mpr hb))
  exact List.Perm.eq_of_pairwise hantisymm (pairwise_sorted items) (pairwise_sorted others) hperm

end Order

namespace Tagged

open Datum

variable {declared : Option TypeExpr} {d d' : Datum} {items others : List Datum}

theorem ofDatum_tuple (declared : Option TypeExpr) (items : List Datum) :
    ofDatum declared (.tuple items) =
      sequenceAll (items.map (ofDatum (declared.bind (·.element?)))) >>=
        fun vs => .ok (.tuple vs) := by
  rw [← ofItems_eq_sequenceAll]
  rfl

theorem ofDatum_of_isSetOf (hd : d.IsSetOf items) (declared : Option TypeExpr) :
    ofDatum declared d =
      sequenceAll ((items.mergeSort setOrder).map (ofDatum (declared.bind (·.element?)))) >>=
        fun vs => .ok (.tuple vs) := by
  have hset : ofDatum declared d =
      sequenceAll (((outcomes (declared.bind (·.element?)) items).mergeSort
        fun a b => setOrder a.1 b.1).map (·.2)) >>= fun vs => .ok (.tuple vs) := by
    rcases hd with rfl | rfl <;> rfl
  have hpairs : (items.mergeSort setOrder).map
        (fun x => (x, ofDatum (declared.bind (·.element?)) x)) =
      (items.map fun x => (x, ofDatum (declared.bind (·.element?)) x)).mergeSort
        fun a b => setOrder a.1 b.1 :=
    List.map_mergeSort fun _ _ _ _ => rfl
  rw [hset, outcomes_eq_map, ← hpairs, List.map_map]
  rfl

end Tagged

end BuildConstants
