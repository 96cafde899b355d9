import BuildConstants.Proofs.BoxedScalars
import BuildConstants.Proofs.BuiltinTypes
import BuildConstants.Proofs.Tagging

/-!
# Items that stand for containers

Where a container is declared, an item may stand by itself. At the top it is written as a
container of this one item, but its kind is that of a value without a declared type. Further
inside it is written bare: without the brackets that the list of this one item would have.
-/

namespace BuildConstants

open Literal Outcome ResolvedType

/-- Neither null nor a sequence or set. -/
def Datum.IsItem (d : Datum) : Prop :=
  d ≠ .null ∧ d.elements? = none

namespace TypeExpr

/-- One item at a place where a container is declared becomes a list of this item. The items of a
set cannot be lists. -/
inductive Wrapped : TypeExpr → Datum → Datum → Prop
  | here {t : TypeExpr} (ht : t.IsContainer) {r : Datum} (hr : r.IsItem) : Wrapped t r (.list [r])
  | list {t e : TypeExpr} (he : t.element? = some e) {front back : List Datum} {d d' : Datum}
      (h : Wrapped e d d') : Wrapped t (.list (front ++ d :: back)) (.list (front ++ d' :: back))
  | tuple {t e : TypeExpr} (he : t.element? = some e) {front back : List Datum} {d d' : Datum}
      (h : Wrapped e d d') : Wrapped t (.tuple (front ++ d :: back)) (.tuple (front ++ d' :: back))

def listOf (a : TypeExpr) : TypeExpr :=
  ⟨"List", false, false, [a]⟩

theorem names_listOf (a : TypeExpr) : (listOf a).Names .list := by
  show Builtin.ofName? "List" = some .list
  decide

theorem isContainer_listOf (a : TypeExpr) : (listOf a).IsContainer :=
  .inr (.inl (names_listOf a))

theorem OverBuiltins.listOf {a : TypeExpr} (h : a.OverBuiltins) : (listOf a).OverBuiltins :=
  .intro (names_listOf a) (List.forall_mem_singleton.mpr h)

theorem Wrapped.listOf {a : TypeExpr} {d d' : Datum} (h : a.Wrapped d d') :
    (listOf a).Wrapped (.list [d]) (.list [d']) := by
  have hfront : Wrapped (.listOf a) (.list ([] ++ d :: [])) (.list ([] ++ d' :: [])) := .list rfl h
  exact hfront

end TypeExpr

/-! Tags of items -/

namespace Scalar

theorem retagged_ofInt {hint : Option ScalarKind} {n : Int} {s : Scalar}
    (h : ofInt hint n = .ok s) : (ofInt.untaggedInt n).Retagged s := by
  have huntagged : argumentWeight (ofInt.untaggedInt n) = 0 := weight_repr n
  constructor
  · rw [huntagged]
    unfold ofInt at h
    split at h
    · obtain rfl := Except.ok.inj h
      exact (weight_repr n).symm
    · split at h
      · obtain rfl := Except.ok.inj h
        exact (weight_repr n).symm
      · split at h
        · split at h
          · rename_i x _
            obtain rfl := Except.ok.inj h
            exact (weight_text x).symm
          · cases h
        · obtain rfl := Except.ok.inj h
          exact huntagged.symm
    · obtain rfl := Except.ok.inj h
      exact huntagged.symm
  · unfold ofInt.untaggedInt
    split <;> simp

theorem retagged_ofFloat (hint : Option ScalarKind) (x : Number.Binary64) :
    (ofFloat none x).Retagged (ofFloat hint x) := by
  have hweight (hint : Option ScalarKind) : argumentWeight (ofFloat hint x) = 0 := by
    unfold ofFloat
    split <;> exact weight_text x
  exact ⟨(hweight none).trans (hweight hint).symm, .inr ⟨by simp [ofFloat], by simp [ofFloat]⟩⟩

theorem retagged_ofText (hint : Option ScalarKind) (d : Datum) :
    (ofText none d).Retagged (ofText hint d) := by
  have hvalue (hint : Option ScalarKind) : (ofText hint d).value = d := by
    unfold ofText
    split <;> rfl
  refine ⟨?_, .inr ⟨by simp [ofText], by simp [ofText]⟩⟩
  rw [argumentWeight, argumentWeight, hvalue, hvalue]

end Scalar

namespace Tagged

variable {r : Datum} (hr : r.IsItem)

include hr

/-- A declared container says nothing about the kind of an item. -/
theorem ofDatum_item {declared : Option TypeExpr} (h : declared.bind (·.scalarKind?) = none) :
    ofDatum declared r = ofDatum none r := by
  cases r with
  | list items | tuple items | set items | frozenSet items => cases hr.2
  | int n => rw [ofDatum_int, ofDatum_int, h]; rfl
  | float x => rw [ofDatum, ofDatum, h]; rfl
  | text s => rw [ofDatum, ofDatum, h]; rfl
  | member m => rw [ofDatum, ofDatum, h]; rfl
  | _ => rfl

theorem exists_scalar_of_item : ∃ s, ofDatum none r = .ok (.scalar s) := by
  cases r with
  | list items | tuple items | set items | frozenSet items => cases hr.2
  | null => exact absurd rfl hr.1
  | _ => exact ⟨_, rfl⟩

theorem exists_retagged {declared : Option TypeExpr} {v : Tagged}
    (hv : ofDatum declared r = .ok v) {s : Scalar} (hs : ofDatum none r = .ok (.scalar s)) :
    ∃ s', v = .scalar s' ∧ s.Retagged s' := by
  cases r with
  | list items | tuple items | set items | frozenSet items => cases hr.2
  | null => exact absurd rfl hr.1
  | int n =>
    obtain ⟨s', hs', hv⟩ := bind_eq_ok_iff.mp hv
    obtain rfl := Except.ok.inj hv
    obtain rfl := Tagged.scalar.inj (Except.ok.inj hs)
    exact ⟨s', rfl, Scalar.retagged_ofInt hs'⟩
  | float x =>
    obtain rfl := Except.ok.inj hv
    obtain rfl := Tagged.scalar.inj (Except.ok.inj hs)
    exact ⟨_, rfl, Scalar.retagged_ofFloat _ x⟩
  | text t | member t =>
    obtain rfl := Except.ok.inj hv
    obtain rfl := Tagged.scalar.inj (Except.ok.inj hs)
    exact ⟨_, rfl, Scalar.retagged_ofText _ _⟩
  | bool b | bytes octets | date y m d | path p | map entries | scalar k x | record name fields
  | object sort form shown =>
    obtain rfl := Except.ok.inj hv
    obtain rfl := Tagged.scalar.inj (Except.ok.inj hs)
    exact ⟨_, rfl, .refl _⟩

end Tagged

namespace Tagged

theorem ofItems_eq_collect (declared : Option TypeExpr) (items : List Datum) :
    ofItems declared items = collect (ofDatum declared) items := by
  induction items with
  | nil => rfl
  | cons d rest ih =>
    rw [ofItems_cons, collect, ih]
    rfl

end Tagged

namespace TypeExpr

/-- What a changed element makes of its sequence. -/
theorem boxed_tuple {classes : ClassRegistry} {t e : TypeExpr} (ht : t.OverBuiltins)
    (he : t.element? = some e) {r : ResolvedType} (hr : t.resolve classes = .ok r)
    {front back : List Datum} {d d' : Datum} {vs vs' : List Tagged}
    (hboxed : ∀ {u v v'}, e.OverBuiltins → e.resolve classes = .ok u →
      Tagged.ofDatum (some e) d = .ok v → Tagged.ofDatum (some e) d' = .ok v' → Boxed u v v')
    (hvs : Tagged.ofItems t.element? (front ++ d :: back) = .ok vs)
    (hvs' : Tagged.ofItems t.element? (front ++ d' :: back) = .ok vs') :
    Boxed r (.tuple vs) (.tuple vs') := by
  rw [Tagged.ofItems_eq_collect, he] at hvs hvs'
  obtain ⟨front₁, v, back₁, hfront, hv, hback, rfl⟩ := collect_append_cons hvs
  obtain ⟨front₂, v', back₂, hfront', hv', hback', rfl⟩ := collect_append_cons hvs'
  obtain rfl := Except.ok.inj (hfront.symm.trans hfront')
  obtain rfl := Except.ok.inj (hback.symm.trans hback')
  obtain ⟨hover, u, hu, hpart⟩ := ht.exists_part he hr
  have helement : Boxed u v v' := hboxed hover hu hv hv'
  obtain ⟨k, n, rfl, rfl⟩ | ⟨hgeneric, hpart⟩ := part?_eq_some hpart
  · exact Bool.noConfusion helement.isSequence
  · apply Boxed.element hgeneric
    rw [elementOrList, hpart]
    exact helement

theorem Wrapped.boxed {classes : ClassRegistry} {t : TypeExpr} {raw raw' : Datum}
    (h : t.Wrapped raw raw') : ∀ {r v v'}, t.OverBuiltins → t.resolve classes = .ok r →
      Tagged.ofDatum (some t) raw = .ok v → Tagged.ofDatum (some t) raw' = .ok v' →
      Boxed r v v' := by
  induction h with
  | @here t ht d hd =>
    intro r v v' hover hr hv hv'
    obtain ⟨s, hs⟩ := Tagged.exists_scalar_of_item hd
    have hkind : (some t).bind (·.scalarKind?) = none := ht.scalarKind_eq_none
    rw [Tagged.ofDatum_item hd hkind, hs] at hv
    obtain rfl := Except.ok.inj hv
    obtain ⟨vs, hvs, hv'⟩ := bind_eq_ok_iff.mp hv'
    obtain rfl := Except.ok.inj hv'
    rw [Tagged.ofItems_eq_collect] at hvs
    obtain ⟨w, others, hw, hothers, rfl⟩ := collect_cons_eq_ok hvs
    obtain rfl := Except.ok.inj hothers
    obtain ⟨s', rfl, hretagged⟩ := Tagged.exists_retagged hd hw hs
    exact .here (hover.isSequence ht hr) hretagged
  | list he h ih | tuple he h ih =>
    intro r v v' hover hr hv hv'
    obtain ⟨vs, hvs, hv⟩ := bind_eq_ok_iff.mp hv
    obtain rfl := Except.ok.inj hv
    obtain ⟨vs', hvs', hv'⟩ := bind_eq_ok_iff.mp hv'
    obtain rfl := Except.ok.inj hv'
    exact boxed_tuple hover he hr ih hvs hvs'

end TypeExpr

namespace Language

open TypeExpr (listOf isContainer_listOf)

variable {l : Language} {classes : ClassRegistry} {name : String} {type : TypeExpr}

/-- The initializer of a constant with this raw value, if it can be declared. -/
def initializer? (l : Language) (classes : ClassRegistry) (name : String) (type : TypeExpr)
    (raw : Datum) : Option String :=
  (do
    let c ← Constant.ofDatum name type raw
    let declaration ← l.dialect.emit c classes
    return declaration.initializer : Except Fault String).toOption

/-- The text of a scalar where a container is declared, without the brackets. -/
def written? (l : Language) (t : ResolvedType) (s : Scalar) : Option String :=
  ((placeForm l.form t s).write l.dialect.style s).toOption

theorem toOption_eq_some_iff {α : Type} {x : Except Fault α} {a : α} :
    x.toOption = some a ↔ x = .ok a := by
  cases x <;> simp [Except.toOption]

theorem toOption_bind_ok {α β : Type} (x : Except Fault α) (f : α → β) :
    (x >>= fun a => .ok (f a)).toOption = x.toOption.map f := by
  cases x <;> rfl

theorem initializer?_eq_some_iff {raw : Datum} {text : String} :
    l.initializer? classes name type raw = some text ↔
      ∃ v n t, Tagged.ofDatum (some type) raw = .ok v ∧ l.dialect.identifier name = .ok n ∧
        type.resolve classes = .ok t ∧
        l.dialect.initializer name ((Initial.literal v).adapt t) (.literal v) = .ok text := by
  rw [initializer?, toOption_eq_some_iff]
  constructor
  · intro h
    obtain ⟨c, hc, h⟩ := bind_eq_ok_iff.mp h
    obtain ⟨v, hv, hc⟩ := bind_eq_ok_iff.mp hc
    obtain rfl := Except.ok.inj hc
    obtain ⟨d, hd, h⟩ := bind_eq_ok_iff.mp h
    obtain rfl := Except.ok.inj h
    obtain ⟨n, t, text, hn, ht, htext, rfl⟩ := Dialect.emit_eq_ok_iff.mp hd
    exact ⟨v, n, t, hv, hn, ht, htext⟩
  · rintro ⟨v, n, t, hv, hn, ht, htext⟩
    have hemit := (Dialect.emit_eq_ok_iff (c := ⟨name, type, .literal v⟩)).mpr
      ⟨n, t, text, hn, ht, htext, rfl⟩
    simp [Constant.ofDatum, hv, hemit]

theorem initializer?_of_tag {raw : Datum} {v : Tagged} {n : String} {t : ResolvedType}
    (hv : Tagged.ofDatum (some type) raw = .ok v) (hnull : v.isNull = false)
    (hn : l.dialect.identifier name = .ok n) (ht : type.resolve classes = .ok t) :
    l.initializer? classes name type raw =
      (l.dialect.initializer name t (.literal v)).toOption := by
  have hadapt : (Initial.literal v).adapt t = t := by
    simp [Initial.adapt, Initial.isNull, hnull]
  apply Option.ext
  intro text
  rw [initializer?_eq_some_iff, toOption_eq_some_iff]
  constructor
  · rintro ⟨v', n', t', hv', -, ht', htext⟩
    obtain rfl := Except.ok.inj (hv.symm.trans hv')
    obtain rfl := Except.ok.inj (ht.symm.trans ht')
    rwa [hadapt] at htext
  · intro htext
    refine ⟨v, n, t, hv, hn, ht, ?_⟩
    rwa [hadapt]

theorem initializer_single {t : ResolvedType} (ht : t.isSequence = true) (s : Scalar) :
    l.dialect.initializer name t (.literal (.tuple [.scalar s])) =
      l.dialect.initializer name t (.literal (.scalar s)) := by
  rw [Dialect.initializer, Dialect.initializer, format_single ht]
  rfl

theorem ofDatum_single {d : Datum} {v : Tagged} (h : Tagged.ofDatum type.element? d = .ok v) :
    Tagged.ofDatum (some type) (.list [d]) = .ok (.tuple [v]) := by
  simp [Tagged.ofDatum, Tagged.ofItems, h]

/-- An item that stands for a container is its only element, of the kind that it has anyway. -/
theorem initializer?_lone (htype : type.OverBuiltins) (hc : type.IsContainer) {r : Datum}
    (hr : r.IsItem) {s : Scalar} (hs : Tagged.ofDatum none r = .ok (.scalar s)) :
    l.initializer? classes name type r = l.initializer? classes name type (.list [s.datum]) := by
  have hkind : (some type).bind (·.scalarKind?) = none := hc.scalarKind_eq_none
  have hlone : Tagged.ofDatum (some type) r = .ok (.scalar s) :=
    (Tagged.ofDatum_item hr hkind).trans hs
  have hlist : Tagged.ofDatum (some type) (.list [s.datum]) = .ok (.tuple [.scalar s]) :=
    ofDatum_single rfl
  apply Option.ext
  intro text
  rw [initializer?_eq_some_iff, initializer?_eq_some_iff]
  constructor
  · rintro ⟨v, n, t, hv, hn, ht, htext⟩
    obtain rfl := Except.ok.inj (hlone.symm.trans hv)
    refine ⟨_, n, t, hlist, hn, ht, ?_⟩
    exact (initializer_single (htype.isSequence hc ht) s).trans htext
  · rintro ⟨v, n, t, hv, hn, ht, htext⟩
    obtain rfl := Except.ok.inj (hlist.symm.trans hv)
    refine ⟨_, n, t, hlone, hn, ht, ?_⟩
    exact (initializer_single (htype.isSequence hc ht) s).symm.trans htext

theorem allows_of_overBuiltins (htype : type.OverBuiltins) {t : ResolvedType}
    (ht : type.resolve classes = .ok t) : l.Allows t := by
  obtain ⟨r, hr⟩ := htype.resolves ht
  obtain ⟨full, hfull, hclass⟩ := hr.result
  obtain rfl := Except.ok.inj (ht.symm.trans hfull)
  refine allows_of_resolve ht fun _ q hq => ?_
  rw [hclass] at hq
  cases hq

theorem exists_around {t : ResolvedType} (hallows : l.Allows t) (ht : t.isSequence = true)
    (name : String) : ∃ b : Template.Brackets, ∀ s,
      l.dialect.initializer name t (.literal (.tuple [.scalar s])) =
        ((placeForm l.form t s).write l.dialect.style s >>= fun text =>
          .ok (b.around l.dialect.style.separator [text])) := by
  have hfits (s : Scalar) : Fits t (.tuple [.scalar s]) := by
    have hscalar : ∀ v ∈ [Tagged.scalar s], v = .scalar s := fun v hv => List.mem_singleton.mp hv
    cases t with
    | primitive k n | string n | named q as c n => cases ht
    | primitiveArray k n => exact .primitiveArray k n fun v hv => ⟨s, hscalar v hv⟩
    | array e n | list e n | set e n =>
      refine .generic rfl fun v hv => ?_
      rw [hscalar v hv]
      exact .scalar _ s
  obtain ⟨b, hb⟩ : ∃ b : Template.Brackets, ∀ texts,
      enclosed l.dialect.style texts t = .ok (b.around l.dialect.style.separator texts) := by
    cases t with
    | primitive k n | string n | named q as c n => cases ht
    | primitiveArray k n | list e n | set e n => exact ⟨_, fun texts => rfl⟩
    | array e n =>
      obtain ⟨b, hb, -⟩ := hallows.creates.array
      exact ⟨b, fun texts => by simp [enclosed, hb]⟩
  refine ⟨b, fun s => ?_⟩
  rw [initializer_eq_print (hfits s) hallows, print, Literal.print]
  simp [printItems, hb]

theorem initializer?_eq_iff_written {t : ResolvedType} {n : String} {raw raw' : Datum}
    {s s' : Scalar} (hallows : l.Allows t) (hsequence : t.isSequence = true)
    (hn : l.dialect.identifier name = .ok n) (ht : type.resolve classes = .ok t)
    (hraw : Tagged.ofDatum (some type) raw = .ok (.tuple [.scalar s]))
    (hraw' : Tagged.ofDatum (some type) raw' = .ok (.tuple [.scalar s'])) :
    l.initializer? classes name type raw = l.initializer? classes name type raw' ↔
      l.written? t s = l.written? t s' := by
  obtain ⟨b, hb⟩ := exists_around hallows hsequence name
  have hinjective : Function.Injective fun text =>
      b.around l.dialect.style.separator [text] := by
    intro text text' h
    simpa [Template.Brackets.around] using h
  rw [initializer?_of_tag hraw rfl hn ht, initializer?_of_tag hraw' rfl hn ht, hb, hb,
    toOption_bind_ok, toOption_bind_ok, (Option.map_injective hinjective).eq_iff]
  rfl

/-- Inside of other containers an item and its list differ in their brackets. -/
theorem initializer?_ne_of_wrapped (htype : type.OverBuiltins) {raw raw' : Datum}
    (h : type.Wrapped raw raw') (hraw : ¬ raw.IsItem) {text : String}
    (htext : l.initializer? classes name type raw = some text) :
    l.initializer? classes name type raw' ≠ some text := by
  intro htext'
  obtain ⟨v, n, t, hv, -, ht, htext⟩ := initializer?_eq_some_iff.mp htext
  obtain ⟨v', n', t', hv', -, ht', htext'⟩ := initializer?_eq_some_iff.mp htext'
  obtain rfl := Except.ok.inj (ht.symm.trans ht')
  have hboxed := h.boxed htype ht hv hv'
  have hscalar : ∀ s, v ≠ .scalar s := by
    rintro s rfl
    cases h with
    | here hc hr => exact hraw hr
    | list he h | tuple he h =>
      obtain ⟨vs, -, hv⟩ := bind_eq_ok_iff.mp hv
      cases hv
  have hadapt : (Initial.literal v).adapt t = t ∧ (Initial.literal v').adapt t = t := by
    cases hboxed <;> exact ⟨rfl, rfl⟩
  rw [hadapt.1] at htext
  rw [hadapt.2] at htext'
  exact l.initializer_ne_of_boxed hboxed hscalar htext htext'

/-- An item for which a container is declared is written as the list of this item, its kind taken
as if no type was declared. The list itself takes the kind from the declared element type, so both
have one initializer exactly if the item is written alike with both kinds. Inside of other
containers an item never has the initializer of its list. -/
theorem emit_lone_item (l : Language) (classes : ClassRegistry) (name : String) {type : TypeExpr}
    (htype : type.OverBuiltins) :
    (type.IsContainer → ∀ r : Datum, r.IsItem → ∃ s, Tagged.ofDatum none r = .ok (.scalar s) ∧
      l.initializer? classes name type r = l.initializer? classes name type (.list [s.datum]) ∧
      ∀ n t s', l.dialect.identifier name = .ok n → type.resolve classes = .ok t →
        Tagged.ofDatum type.element? r = .ok (.scalar s') →
        (l.initializer? classes name type r = l.initializer? classes name type (.list [r]) ↔
          l.written? t s = l.written? t s')) ∧
    ∀ raw raw' : Datum, type.Wrapped raw raw' → ¬ raw.IsItem → ∀ text,
      l.initializer? classes name type raw = some text →
        l.initializer? classes name type raw' ≠ some text := by
  constructor
  · intro hc r hr
    obtain ⟨s, hs⟩ := Tagged.exists_scalar_of_item hr
    have hlone : l.initializer? classes name type r =
        l.initializer? classes name type (.list [s.datum]) := initializer?_lone htype hc hr hs
    refine ⟨s, hs, hlone, fun n t s' hn ht hs' => ?_⟩
    rw [hlone]
    exact initializer?_eq_iff_written (allows_of_overBuiltins htype ht) (htype.isSequence hc ht)
      hn ht (ofDatum_single rfl) (ofDatum_single hs')
  · intro raw raw' h hraw text htext
    exact initializer?_ne_of_wrapped htype h hraw htext

theorem emit_lone_item_nested :
    (listOf (listOf ⟨"Int", false, false, []⟩)).OverBuiltins ∧
    (listOf (listOf ⟨"Int", false, false, []⟩)).IsContainer ∧ (Datum.int 1).IsItem ∧
    kotlin.initializer? .empty "X" (listOf (listOf ⟨"Int", false, false, []⟩)) (.int 1) =
      kotlin.initializer? .empty "X" (listOf (listOf ⟨"Int", false, false, []⟩))
        (.list [.int 1]) ∧
    (listOf (listOf ⟨"Int", false, false, []⟩)).Wrapped (.list [.int 1])
      (.list [.list [.int 1]]) ∧
    kotlin.initializer? .empty "X" (listOf (listOf ⟨"Int", false, false, []⟩)) (.list [.int 1]) =
      some "listOf(1)" ∧
    kotlin.initializer? .empty "X" (listOf (listOf ⟨"Int", false, false, []⟩))
      (.list [.list [.int 1]]) ≠ some "listOf(1)" := by
  have hnames : TypeExpr.Names ⟨"Int", false, false, []⟩ .int := by decide
  have houter : (listOf (listOf ⟨"Int", false, false, []⟩)).OverBuiltins :=
    (TypeExpr.OverBuiltins.intro hnames nofun).listOf.listOf
  have hitem : (Datum.int 1).IsItem := ⟨nofun, rfl⟩
  have hwrapped : (listOf (listOf ⟨"Int", false, false, []⟩)).Wrapped (.list [.int 1])
      (.list [.list [.int 1]]) := (TypeExpr.Wrapped.here (isContainer_listOf _) hitem).listOf
  have htext : kotlin.initializer? .empty "X" (listOf (listOf ⟨"Int", false, false, []⟩))
      (.list [.int 1]) = some "listOf(1)" := rfl
  obtain ⟨htop, hinside⟩ := emit_lone_item kotlin .empty "X" houter
  obtain ⟨s, hs, -, hiff⟩ := htop (isContainer_listOf _) _ hitem
  exact ⟨houter, isContainer_listOf _, hitem, (hiff _ _ s rfl rfl hs).mpr rfl, hwrapped, htext,
    hinside _ _ hwrapped (fun h => by cases h.2) _ htext⟩

/-- A number loses the declared kind of its element, and an item in a list the brackets. -/
theorem lone_item_changes_initializer :
    ((listOf ⟨"long", false, false, []⟩).OverBuiltins ∧
      (listOf ⟨"long", false, false, []⟩).Wrapped (.int 5) (.list [.int 5]) ∧
      kotlin.initializer? .empty "X" (listOf ⟨"long", false, false, []⟩) (.int 5) =
        some "listOf(5)" ∧
      kotlin.initializer? .empty "X" (listOf ⟨"long", false, false, []⟩) (.list [.int 5]) =
        some "listOf(5L)") ∧
    (listOf (listOf ⟨"Int", false, false, []⟩)).OverBuiltins ∧
    (listOf (listOf ⟨"Int", false, false, []⟩)).Wrapped (.list [.int 1])
      (.list [.list [.int 1]]) ∧
    kotlin.initializer? .empty "X" (listOf (listOf ⟨"Int", false, false, []⟩)) (.list [.int 1]) =
      some "listOf(1)" ∧
    kotlin.initializer? .empty "X" (listOf (listOf ⟨"Int", false, false, []⟩))
      (.list [.list [.int 1]]) = some "listOf(listOf(1))" := by
  have hwrapped (a : TypeExpr) (n : Int) : (listOf a).Wrapped (.int n) (.list [.int n]) :=
    .here (isContainer_listOf a) ⟨nofun, rfl⟩
  have hlong : TypeExpr.Names ⟨"long", false, false, []⟩ .long := by decide
  have hint : TypeExpr.Names ⟨"Int", false, false, []⟩ .int := by decide
  exact ⟨⟨(TypeExpr.OverBuiltins.intro hlong nofun).listOf, hwrapped _ 5, rfl, rfl⟩,
    (TypeExpr.OverBuiltins.intro hint nofun).listOf.listOf, (hwrapped _ 1).listOf, rfl, rfl⟩

end Language

end BuildConstants
