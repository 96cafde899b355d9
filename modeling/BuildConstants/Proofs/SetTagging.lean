import BuildConstants.Dialect.Kotlin
import BuildConstants.Proofs.SetEnumerations

/-!
# Sets whose order is settled

A set is tagged alike in all of its enumerations if and only if any two of its elements that are
tagged differently stand in one order, however the sets inside of them are enumerated.
-/

namespace BuildConstants

open Outcome Datum

namespace Tagged

/-- Every enumeration is tagged alike. -/
def Independent (declared : Option TypeExpr) (d : Datum) : Prop :=
  ∀ d', d.Same d' → ofDatum declared d' = ofDatum declared d

/-- Elements that are tagged differently stand in one order in all of their enumerations. -/
def InOneOrder (declared : Option TypeExpr) (items : List Datum) : Prop :=
  ∀ x ∈ items, ∀ y ∈ items, ofDatum declared x ≠ ofDatum declared y →
    ∀ x' y', x.Same x' → y.Same y' → setOrder x' y' = setOrder x y

/-- The elements of every set inside of a value stand in one order as far as it matters. -/
inductive Settled : Option TypeExpr → Datum → Prop
  | single (declared : Option TypeExpr) {d : Datum} (hd : d.elements? = none) : Settled declared d
  | tuple {declared : Option TypeExpr} {items : List Datum}
      (h : ∀ x ∈ items, Settled (declared.bind (·.element?)) x) : Settled declared (.tuple items)
  | set {declared : Option TypeExpr} {d : Datum} {items : List Datum} (hd : d.IsSetOf items)
      (h : ∀ x ∈ items, Settled (declared.bind (·.element?)) x)
      (ho : InOneOrder (declared.bind (·.element?)) items) : Settled declared d

variable {declared : Option TypeExpr} {d x x' : Datum} {items mid others front back : List Datum}
  {v : Tagged}

theorem exists_pairs (h : List.Forall₂ Same items others) : ∃ pairs : List (Datum × Datum),
    pairs.map (·.1) = items ∧ pairs.map (·.2) = others ∧ ∀ p ∈ pairs, p.1.Same p.2 := by
  induction h with
  | nil => exact ⟨[], rfl, rfl, nofun⟩
  | @cons x y items others hxy _ ih =>
    obtain ⟨pairs, rfl, rfl, hpairs⟩ := ih
    exact ⟨(x, y) :: pairs, rfl, rfl, List.forall_mem_cons.mpr ⟨hxy, hpairs⟩⟩

/-- Sorted by either of two enumerations, the elements show the same taggings. -/
theorem sorted_tags_eq (hi : ∀ x ∈ items, Element x) (hmid : List.Forall₂ Same items mid)
    (hx : ∀ x ∈ items, Independent declared x) (ho : InOneOrder declared items) :
    (mid.mergeSort setOrder).map (ofDatum declared) =
      (items.mergeSort setOrder).map (ofDatum declared) := by
  obtain ⟨pairs, rfl, rfl, hsame⟩ := exists_pairs hmid
  have hmem {p : Datum × Datum} (hp : p ∈ pairs) : p.1 ∈ pairs.map (·.1) :=
    List.mem_map_of_mem hp
  have hbefore : (pairs.mergeSort fun p q => setOrder p.1 q.1).map (·.1) =
      (pairs.map (·.1)).mergeSort setOrder :=
    List.map_mergeSort fun _ _ _ _ => rfl
  have hafter : (pairs.mergeSort fun p q => setOrder p.2 q.2).map (·.2) =
      (pairs.map (·.2)).mergeSort setOrder :=
    List.map_mergeSort fun _ _ _ _ => rfl
  rw [← hbefore, ← hafter, List.map_map, List.map_map]
  have htags : (pairs.mergeSort fun p q => setOrder p.2 q.2).map (ofDatum declared ∘ (·.2)) =
      (pairs.mergeSort fun p q => setOrder p.2 q.2).map (ofDatum declared ∘ (·.1)) := by
    refine List.map_congr_left fun p hp => ?_
    have hp := List.mem_mergeSort.mp hp
    exact hx p.1 (hmem hp) p.2 (hsame p hp)
  rw [htags]
  have hperm : (pairs.mergeSort fun p q => setOrder p.2 q.2).Perm
      (pairs.mergeSort fun p q => setOrder p.1 q.1) :=
    (List.mergeSort_perm _ _).trans (List.mergeSort_perm _ _).symm
  refine map_eq_of_perm (r := fun p q => setOrder p.1 q.1 = true) hperm ?_ ?_ ?_
  · have hsorted := pairwise_sorted_by (fun p : Datum × Datum => p.2) pairs
    refine hsorted.imp_of_mem fun {p q} hp hq hpq => ?_
    have hp := List.mem_mergeSort.mp hp
    have hq := List.mem_mergeSort.mp hq
    by_cases heq : ofDatum declared p.1 = ofDatum declared q.1
    · exact .inl heq
    · rw [ho p.1 (hmem hp) q.1 (hmem hq) heq p.2 q.2 (hsame p hp) (hsame q hq)] at hpq
      exact .inr hpq
  · have hsorted := pairwise_sorted_by (fun p : Datum × Datum => p.1) pairs
    exact hsorted.imp .inr
  · intro p hp q hq hpq hqp
    have hp := hmem (List.mem_mergeSort.mp hp)
    have hq := hmem (List.mem_mergeSort.mp hq)
    exact congrArg (ofDatum declared) (setOrder_antisymm (hi _ hp) (hi _ hq) hpq hqp)

theorem independent_of_inOneOrder (hd : d.IsSetOf items) (hi : ∀ x ∈ items, Element x)
    (hx : ∀ x ∈ items, Independent (declared.bind (·.element?)) x)
    (ho : InOneOrder (declared.bind (·.element?)) items) : Independent declared d := by
  intro d' hsame
  obtain ⟨mid, others, hmid, hp, hd'⟩ := hsame.exists_items hd
  have hm : ∀ y ∈ mid, Element y := elements_of_same hi hmid (.refl mid)
  rw [ofDatum_of_isSetOf hd, ofDatum_of_isSetOf hd', ← sorted_eq_of_perm hm hp,
    sorted_tags_eq hi hmid hx ho]

theorem independent_tuple (hx : ∀ x ∈ items, Independent (declared.bind (·.element?)) x) :
    Independent declared (.tuple items) := by
  intro d' hsame
  cases hsame with
  | refl => rfl
  | tuple h =>
    obtain ⟨pairs, rfl, rfl, hpairs⟩ := exists_pairs h
    rw [ofDatum_tuple, ofDatum_tuple, List.map_map, List.map_map]
    have htags : pairs.map (ofDatum (declared.bind (·.element?)) ∘ (·.2)) =
        pairs.map (ofDatum (declared.bind (·.element?)) ∘ (·.1)) :=
      List.map_congr_left fun p hp => hx p.1 (List.mem_map_of_mem hp) p.2 (hpairs p hp)
    rw [htags]

theorem Settled.of_isSetOf (hd : d.IsSetOf items) (h : Settled declared d) :
    (∀ x ∈ items, Settled (declared.bind (·.element?)) x) ∧
      InOneOrder (declared.bind (·.element?)) items := by
  cases h with
  | single _ hnone => rcases hd with rfl | rfl <;> cases hnone
  | tuple => rcases hd with hd | hd <;> cases hd
  | set hd' h ho =>
    rcases hd with rfl | rfl
    · rcases hd' with hd' | hd' <;> cases hd'
      exact ⟨h, ho⟩
    · rcases hd' with hd' | hd' <;> cases hd'
      exact ⟨h, ho⟩

theorem Settled.independent (hd : Element d) (h : Settled declared d) : Independent declared d := by
  induction hd generalizing declared with
  | bool b | int n | text s =>
    intro d' hsame
    cases hsame
    rfl
  | tuple hi ih =>
    cases h with
    | single _ hd => cases hd
    | tuple h => exact independent_tuple fun x hx => ih x hx (h x hx)
    | set hd => obtain hd | hd := hd <;> cases hd
  | frozenSet hi ih =>
    obtain ⟨h, ho⟩ := h.of_isSetOf (.inr rfl)
    exact independent_of_inOneOrder (.inr rfl) hi (fun x hx => ih x hx (h x hx)) ho

theorem same_replaced (h : x.Same x') (front back : List Datum) :
    List.Forall₂ Same (front ++ x :: back) (front ++ x' :: back) := by
  induction front with
  | nil => exact .cons h (same_items back)
  | cons y front ih => exact .cons (.refl y) ih

theorem exists_tag_of_mem {d : Datum} {items : List Datum} (hd : d.elements? = some items)
    (h : ofDatum declared d = .ok v) (hx : x ∈ items) :
    ∃ w, ofDatum (declared.bind (·.element?)) x = .ok w := by
  obtain ⟨vs, -, harise⟩ := ofDatum_sequence hd h
  obtain ⟨w, -, hw⟩ := harise.exists_value hx
  exact ⟨w, hw⟩

theorem sorted_tags_of_eq (hd : d.IsSetOf items) (hd' : x.IsSetOf others)
    (h : ofDatum declared d = .ok v) (heq : ofDatum declared x = ofDatum declared d) :
    (others.mergeSort setOrder).map (ofDatum (declared.bind (·.element?))) =
      (items.mergeSort setOrder).map (ofDatum (declared.bind (·.element?))) := by
  have h' := heq.trans h
  rw [ofDatum_of_isSetOf hd] at h
  rw [ofDatum_of_isSetOf hd'] at h'
  obtain ⟨vs, hvs, h⟩ := bind_eq_ok_iff.mp h
  obtain ⟨vs', hvs', h'⟩ := bind_eq_ok_iff.mp h'
  obtain rfl := Except.ok.inj h
  obtain rfl := tuple.inj (Except.ok.inj h')
  rw [sequenceAll_eq_ok hvs, sequenceAll_eq_ok hvs']

section Replaced

variable (h : ((front ++ x' :: back).mergeSort setOrder).map (ofDatum declared) =
  ((front ++ x :: back).mergeSort setOrder).map (ofDatum declared))

include h

theorem tag_eq_of_replaced : ofDatum declared x' = ofDatum declared x := by
  have hperm : ((front ++ x' :: back).map (ofDatum declared)).Perm
      ((front ++ x :: back).map (ofDatum declared)) := by
    refine ((List.mergeSort_perm _ setOrder).symm.map _).trans ?_
    rw [h]
    exact (List.mergeSort_perm _ setOrder).map _
  apply eq_of_cons_perm_cons (l := (front ++ back).map (ofDatum declared))
  simpa using (List.perm_middle.symm.map _).trans (hperm.trans (List.perm_middle.map _))

theorem order_eq_of_replaced (hi : ∀ y ∈ front ++ x :: back, Element y) (hx' : Element x') :
    ∀ y ∈ front ++ x :: back, ofDatum declared y ≠ ofDatum declared x →
      setOrder x' y = setOrder x y := by
  have htag := tag_eq_of_replaced h
  have hmem (y : Datum) : y ∈ front ++ x :: back ↔ y = x ∨ y ∈ front ++ back :=
    List.perm_middle.mem_iff.trans List.mem_cons
  have hx : Element x := hi x ((hmem x).mpr (.inl rfl))
  have hrest : ∀ y ∈ front ++ back, Element y := fun y hy => hi y ((hmem y).mpr (.inr hy))
  have hsplit (z : Datum) : ∃ low high, (front ++ z :: back).mergeSort setOrder =
      low ++ z :: high ∧ (low ++ high).Perm (front ++ back) := by
    have hperm := List.mergeSort_perm (front ++ z :: back) setOrder
    obtain ⟨low, high, hsorted⟩ := List.append_of_mem (hperm.mem_iff.mpr (by simp : z ∈ _))
    rw [hsorted] at hperm
    exact ⟨low, high, hsorted,
      (List.perm_middle.symm.trans (hperm.trans List.perm_middle)).cons_inv⟩
  obtain ⟨low, high, hsorted, hperm⟩ := hsplit x
  obtain ⟨low', high', hsorted', hperm'⟩ := hsplit x'
  have hpairwise := pairwise_sorted (front ++ x :: back)
  have hpairwise' := pairwise_sorted (front ++ x' :: back)
  rw [hsorted] at hpairwise h
  rw [hsorted'] at hpairwise' h
  -- Without the replaced element both lists are the rest, sorted.
  have hantisymm : ∀ a b, a ∈ low ++ high → b ∈ low' ++ high' → setOrder a b = true →
      setOrder b a = true → a = b := fun a b ha hb =>
    setOrder_antisymm (hrest a (hperm.mem_iff.mp ha)) (hrest b (hperm'.mem_iff.mp hb))
  have hsame : low ++ high = low' ++ high' :=
    List.Perm.eq_of_pairwise hantisymm (hpairwise.sublist (by simp)) (hpairwise'.sublist (by simp))
      (hperm.trans hperm'.symm)
  intro y hy hne
  have hne_x : x ≠ y := fun heq => hne (heq ▸ rfl)
  have hne_x' : x' ≠ y := fun heq => hne (heq ▸ htag)
  have hy := ((hmem y).mp hy).resolve_left hne_x.symm
  rcases order_of_replaced hpairwise hpairwise' hsame htag.symm h.symm y (hperm.mem_iff.mpr hy) hne
    with ⟨hxy, hxy'⟩ | ⟨hyx, hyx'⟩
  · rw [hxy, hxy']
  · rw [setOrder_flip hx' (hrest y hy) hne_x', setOrder_flip hx (hrest y hy) hne_x, hyx, hyx']

end Replaced

section Independent

variable (hd : d.IsSetOf items) (hi : ∀ x ∈ items, Element x) (h : ofDatum declared d = .ok v)
  (hind : Independent declared d)

include hd h hind

theorem Independent.element (hx : x ∈ items) : Independent (declared.bind (·.element?)) x := by
  intro x' hsame
  obtain ⟨front, back, rfl⟩ := List.append_of_mem hx
  obtain ⟨d', hdd', hd'⟩ := hd.exists_same (same_replaced hsame front back) (.refl _)
  exact tag_eq_of_replaced (sorted_tags_of_eq hd hd' h (hind d' hdd'))

include hi

/-- One element in another enumeration keeps its order to those that are tagged differently. -/
theorem Independent.order_left {y : Datum} (hx : x ∈ items) (hy : y ∈ items)
    (hne : ofDatum (declared.bind (·.element?)) y ≠ ofDatum (declared.bind (·.element?)) x)
    (hsame : x.Same x') : setOrder x' y = setOrder x y := by
  obtain ⟨front, back, rfl⟩ := List.append_of_mem hx
  obtain ⟨d', hdd', hd'⟩ := hd.exists_same (same_replaced hsame front back) (.refl _)
  have htags := sorted_tags_of_eq hd hd' h (hind d' hdd')
  exact order_eq_of_replaced htags hi ((hi x hx).of_same hsame) y hy hne

theorem Independent.inOneOrder : InOneOrder (declared.bind (·.element?)) items := by
  intro x hx y hy hne x' y' hsame_x hsame_y
  have htag_x := hind.element hd h hx x' hsame_x
  have htag_y := hind.element hd h hy y' hsame_y
  -- One element after the other is put into its other enumeration.
  have hleft := hind.order_left hd hi h hx hy hne.symm hsame_x
  obtain ⟨front, back, rfl⟩ := List.append_of_mem hx
  obtain ⟨d', hdd', hd'⟩ := hd.exists_same (same_replaced hsame_x front back) (.refl _)
  have h' : ofDatum declared d' = .ok v := (hind d' hdd').trans h
  have hind' : Independent declared d' := fun d'' hsame => by
    rw [hind d'' (hdd'.trans hsame), hind d' hdd']
  have hi' := elements_of_same hi (same_replaced hsame_x front back) (.refl _)
  have hy' : y ∈ front ++ x' :: back := by
    have hyx : y ≠ x := fun heq => hne (heq ▸ rfl)
    have hmem := (List.perm_middle.mem_iff.trans List.mem_cons).mp hy
    exact List.perm_middle.mem_iff.mpr (List.mem_cons_of_mem x' (hmem.resolve_left hyx))
  have hx' : x' ∈ front ++ x' :: back := List.mem_append_right _ List.mem_cons_self
  have hne' : ofDatum (declared.bind (·.element?)) x' ≠ ofDatum (declared.bind (·.element?)) y := by
    rwa [htag_x]
  have hright := hind'.order_left hd' hi' h' hy' hx' hne' hsame_y
  have helement_y := (hi y hy).of_same hsame_y
  calc setOrder x' y' = !setOrder y' x' :=
        setOrder_flip (hi' x' hx') helement_y fun heq => hne' (by rw [heq, htag_y])
    _ = !setOrder y x' := by rw [hright]
    _ = setOrder x' y := (setOrder_flip (hi' x' hx') (hi y hy) fun heq => hne' (by rw [heq])).symm
    _ = setOrder x y := hleft

end Independent

theorem Independent.component (hind : Independent declared (.tuple items))
    (h : ofDatum declared (.tuple items) = .ok v) (hx : x ∈ items) :
    Independent (declared.bind (·.element?)) x := by
  intro x' hsame
  obtain ⟨front, back, rfl⟩ := List.append_of_mem hx
  have h' := (hind _ (.tuple (same_replaced hsame front back))).trans h
  rw [ofDatum_tuple] at h h'
  obtain ⟨vs, hvs, h⟩ := bind_eq_ok_iff.mp h
  obtain ⟨vs', hvs', h'⟩ := bind_eq_ok_iff.mp h'
  obtain rfl := Except.ok.inj h
  obtain rfl := tuple.inj (Except.ok.inj h')
  have htags := (sequenceAll_eq_ok hvs').trans (sequenceAll_eq_ok hvs).symm
  rw [List.map_append, List.map_append, List.map_cons, List.map_cons] at htags
  exact (List.cons.inj (List.append_cancel_left htags)).1

theorem Independent.settled (hd : Element d) (hind : Independent declared d)
    (h : ofDatum declared d = .ok v) : Settled declared d := by
  induction hd generalizing declared v with
  | bool b | int n | text s => exact .single declared rfl
  | @tuple items hi ih =>
    refine .tuple fun x hx => ?_
    obtain ⟨w, hw⟩ := exists_tag_of_mem rfl h hx
    exact ih x hx (hind.component h hx) hw
  | @frozenSet items hi ih =>
    refine .set (.inr rfl) (fun x hx => ?_) (hind.inOneOrder (.inr rfl) hi h)
    obtain ⟨w, hw⟩ := exists_tag_of_mem rfl h hx
    exact ih x hx (hind.element (.inr rfl) h hx) hw

theorem overflows_of_same {d' : Datum} (h : d.Overflows declared) (hsame : d.Same d') :
    d'.Overflows declared := by
  induction h generalizing d' with
  | integer hkind hfloating hn =>
    cases hsame
    exact .integer hkind hfloating hn
  | @element declared d x items hd hx h ih =>
    cases hsame with
    | refl => exact .element hd hx h
    | tuple hitems =>
      obtain rfl := Option.some.inj hd
      obtain ⟨y, hy, hxy⟩ := TypeExpr.exists_right_of_forall₂ hitems x hx
      exact .element rfl hy (ih hxy)
    | set hitems hp | frozenSet hitems hp =>
      obtain rfl := Option.some.inj hd
      obtain ⟨y, hy, hxy⟩ := TypeExpr.exists_right_of_forall₂ hitems x hx
      exact .element rfl (hp.mem_iff.mp hy) (ih hxy)

theorem independent_of_error {e : Fault} (h : ofDatum declared d = .error e) :
    Independent declared d := by
  obtain ⟨rfl, hover⟩ := overflows_of_error h
  intro d' hsame
  rw [h, error_of_overflows (overflows_of_same hover hsame)]

/-- Elements of different types are not ordered by their written forms. -/
theorem setOrder_of_typeName_ne {y y' : Datum} (hne : x.typeName ≠ y.typeName) (hx : x.Same x')
    (hy : y.Same y') : setOrder x' y' = setOrder x y := by
  rw [setOrder, setOrder, hx.typeName_eq, hy.typeName_eq, beq_false_of_ne hne, Bool.false_and,
    Bool.false_and]

theorem inOneOrder_of_own (h : ∀ x ∈ items, ∀ x', x.Same x' → x' = x) :
    InOneOrder declared items := by
  intro x hx y hy _ x' y' hsame_x hsame_y
  rw [h x hx x' hsame_x, h y hy y' hsame_y]

theorem ofDatum_of_perm {d' : Datum} (hd : d.IsSetOf items) (hi : ∀ x ∈ items, Element x)
    (hp : items.Perm others) (hd' : d'.IsSetOf others) :
    ofDatum declared d' = ofDatum declared d := by
  rw [ofDatum_of_isSetOf hd, ofDatum_of_isSetOf hd', sorted_eq_of_perm hi hp]

/-- A set that can be tagged is tagged alike in all enumerations if and only if it is settled. Its
own order never matters, so it is tagged alike if its elements have no other enumeration. -/
theorem independent_iff_settled (hd : d.IsSetOf items) (hi : ∀ x ∈ items, Element x) :
    (Independent declared d ↔ (∃ e, ofDatum declared d = .error e) ∨ Settled declared d) ∧
    (∀ others d', items.Perm others → d'.IsSetOf others →
      ofDatum declared d' = ofDatum declared d) ∧
    ((∀ x ∈ items, ∀ x', x.Same x' → x' = x) → Independent declared d) := by
  refine ⟨⟨fun hind => ?_, ?_⟩, ?_, ?_⟩
  · cases h : ofDatum declared d with
    | error e => exact .inl ⟨e, rfl⟩
    | ok v =>
      refine .inr (.set hd (fun x hx => ?_) (hind.inOneOrder hd hi h))
      obtain ⟨w, hw⟩ := exists_tag_of_mem hd.elements?_eq h hx
      exact (hind.element hd h hx).settled (hi x hx) hw
  · rintro (⟨e, he⟩ | hsettled)
    · exact independent_of_error he
    · obtain ⟨h, ho⟩ := hsettled.of_isSetOf hd
      exact independent_of_inOneOrder hd hi (fun x hx => (h x hx).independent (hi x hx)) ho
  · intro others d' hp hd'
    exact ofDatum_of_perm hd hi hp hd'
  · intro hown d' hsame
    obtain ⟨mid, others, hmid, hp, hd'⟩ := hsame.exists_items hd
    obtain ⟨pairs, rfl, rfl, hpairs⟩ := exists_pairs hmid
    have hitems : pairs.map (·.2) = pairs.map (·.1) :=
      List.map_congr_left fun p hpair =>
        hown p.1 (List.mem_map_of_mem hpair) p.2 (hpairs p hpair)
    rw [hitems] at hp
    exact ofDatum_of_perm hd hi hp hd'

/-- A number stands behind every frozen set. -/
theorem independent_iff_settled_mixed :
    Datum.IsSetOf (.set [.frozenSet [.int 0, .int 8], .int 5])
      [.frozenSet [.int 0, .int 8], .int 5] ∧
    (∀ x ∈ [Datum.frozenSet [.int 0, .int 8], .int 5], Element x) ∧
    Settled none (.set [.frozenSet [.int 0, .int 8], .int 5]) ∧
    ∀ d', Same (.set [.frozenSet [.int 0, .int 8], .int 5]) d' →
      ofDatum none d' = ofDatum none (.set [.frozenSet [.int 0, .int 8], .int 5]) := by
  have hints : ∀ x ∈ [Datum.int 0, .int 8], ∃ n, x = .int n := by simp
  have hset : Datum.IsSetOf (.set [.frozenSet [.int 0, .int 8], .int 5])
      [.frozenSet [.int 0, .int 8], .int 5] := .inl rfl
  have hi : ∀ x ∈ [Datum.frozenSet [.int 0, .int 8], .int 5], Element x := by
    refine List.forall_mem_cons.mpr
      ⟨.frozenSet fun x hx => ?_, List.forall_mem_singleton.mpr (.int 5)⟩
    obtain ⟨n, rfl⟩ := hints x hx
    exact .int n
  have hfrozen : Settled none (.frozenSet [.int 0, .int 8]) := by
    refine .set (.inr rfl) (fun x hx => ?_) (inOneOrder_of_own fun x hx x' hsame => ?_)
    · obtain ⟨n, rfl⟩ := hints x hx
      exact .single _ rfl
    · obtain ⟨n, rfl⟩ := hints x hx
      cases hsame
      rfl
  have hcases : ∀ x ∈ [Datum.frozenSet [.int 0, .int 8], .int 5],
      x = .frozenSet [.int 0, .int 8] ∨ x = .int 5 := by
    simp
  have horder : InOneOrder none [.frozenSet [.int 0, .int 8], .int 5] := by
    intro x hx y hy hne x' y' hsame_x hsame_y
    rcases hcases x hx with rfl | rfl <;> rcases hcases y hy with rfl | rfl
    · exact absurd rfl hne
    · exact setOrder_of_typeName_ne (by decide) hsame_x hsame_y
    · exact setOrder_of_typeName_ne (by decide) hsame_x hsame_y
    · exact absurd rfl hne
  have hsettled : Settled none (.set [.frozenSet [.int 0, .int 8], .int 5]) :=
    .set hset (List.forall_mem_cons.mpr ⟨hfrozen, List.forall_mem_singleton.mpr (.single _ rfl)⟩)
      horder
  exact ⟨hset, hi, hsettled, (independent_iff_settled hset hi).1.mpr (.inr hsettled)⟩

theorem ofDatum_of_sorted (declared : Option TypeExpr) (hd : d.IsSetOf items)
    (hi : ∀ x ∈ items, Element x) (hp : items.Perm others)
    (hs : others.Pairwise fun a b => setOrder a b = true) :
    ofDatum declared d = sequenceAll (others.map (ofDatum (declared.bind (·.element?)))) >>=
      fun vs => .ok (.tuple vs) := by
  rw [ofDatum_of_isSetOf hd, sorted_eq_of_perm hi hp, List.mergeSort_of_pairwise hs]

/-- The frozen set of 0 and 8 comes before that of 3 or behind it, as it is enumerated, and so it
does in the generated source. -/
theorem enumeration_changes_source :
    Same (.set [.frozenSet [.int 0, .int 8], .frozenSet [.int 3]])
      (.set [.frozenSet [.int 8, .int 0], .frozenSet [.int 3]]) ∧
    ∃ v v', ofDatum none (.set [.frozenSet [.int 0, .int 8], .frozenSet [.int 3]]) = .ok v ∧
      ofDatum none (.set [.frozenSet [.int 8, .int 0], .frozenSet [.int 3]]) = .ok v' ∧
      Kotlin.dialect.initializer "X" (.set (some (.set (some (.primitive .int false)) false)) false)
        (.literal v) = .ok "setOf(setOf(0, 8), setOf(3))" ∧
      Kotlin.dialect.initializer "X" (.set (some (.set (some (.primitive .int false)) false)) false)
        (.literal v') = .ok "setOf(setOf(3), setOf(0, 8))" := by
  have hints : ∀ x ∈ [Datum.int 0, .int 8], Element x :=
    List.forall_mem_cons.mpr ⟨.int 0, List.forall_mem_singleton.mpr (.int 8)⟩
  have hthree : ∀ x ∈ [Datum.int 3], Element x := List.forall_mem_singleton.mpr (.int 3)
  have hswap : [Datum.int 8, .int 0].Perm [.int 0, .int 8] :=
    .swap (Datum.int 0) (Datum.int 8) []
  have hpair {d : Datum} {items : List Datum} (hd : d.IsSetOf items)
      (hp : items.Perm [.int 0, .int 8]) : ofDatum none d =
        .ok (.tuple [.scalar ⟨.int, Datum.int 0⟩, .scalar ⟨.int, Datum.int 8⟩]) :=
    ofDatum_of_sorted none hd (fun x hx => hints x (hp.mem_iff.mp hx)) hp (by decide)
  have hsingle : ofDatum none (.frozenSet [.int 3]) =
      .ok (.tuple [.scalar ⟨.int, Datum.int 3⟩]) :=
    ofDatum_of_sorted none (.inr rfl) hthree (.refl _) (by decide)
  have helements {items : List Datum} (hp : items.Perm [.int 0, .int 8]) :
      ∀ x ∈ [Datum.frozenSet items, .frozenSet [.int 3]], Element x :=
    List.forall_mem_cons.mpr ⟨.frozenSet fun x hx => hints x (hp.mem_iff.mp hx),
      List.forall_mem_singleton.mpr (.frozenSet hthree)⟩
  have hfirst := ofDatum_of_sorted none (.inl rfl) (helements (.refl _)) (.refl _) (by decide)
  have hsecond := ofDatum_of_sorted none (.inl rfl) (helements hswap)
    (.swap (Datum.frozenSet [.int 3]) (Datum.frozenSet [.int 8, .int 0]) []) (by decide)
  simp only [List.map_cons, List.map_nil, Option.bind_none, hpair (.inr rfl) (.refl _),
    hpair (.inr rfl) hswap, hsingle] at hfirst hsecond
  exact ⟨.set (.cons (.frozenSet (same_items _) hswap.symm) (same_items _)) (.refl _),
    _, _, hfirst, hsecond, rfl, rfl⟩

end Tagged

end BuildConstants
