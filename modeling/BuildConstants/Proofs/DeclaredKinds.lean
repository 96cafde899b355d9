import BuildConstants.Proofs.BuiltinTypes
import BuildConstants.Proofs.LeafChecks

/-!
# Declared kinds

Tagging goes from a declared type to that of its elements, resolution builds a type with primitive
arrays and element types of its own. Both walk in step: where the value has the shape of its
declared type, every scalar carries the kind that the resolved type declares at its place. So the
rule of its own kind is the rule of the declared one.
-/

namespace BuildConstants

open Literal Outcome ResolvedType

namespace TypeExpr

/-- The value has the shape that its type declares. Integers may stand for floating numbers, any
sequence or set for a container, and null for everything. -/
inductive Shapes : TypeExpr → Datum → Prop
  | null (t : TypeExpr) : Shapes t .null
  | boolean {t : TypeExpr} (ht : t.array = false) (hb : t.Names .boolean) (b : Bool) :
      Shapes t (.bool b)
  | integer {t : TypeExpr} {b : Builtin} {k : ScalarKind} (ht : t.array = false) (hb : t.Names b)
      (hk : b.primitive? = some k) (h : k.isIntegral = true ∨ k.isFloating = true) (n : Int) :
      Shapes t (.int n)
  | float {t : TypeExpr} {b : Builtin} {k : ScalarKind} (ht : t.array = false) (hb : t.Names b)
      (hk : b.primitive? = some k) (h : k.isFloating = true) (x : Number.Binary64) :
      Shapes t (.float x)
  | text {t : TypeExpr} {b : Builtin} (ht : t.array = false) (hb : t.Names b)
      (h : b = .char ∨ b = .string) {d : Datum} (hd : d.text?.isSome = true) : Shapes t d
  | sequence {t e : TypeExpr} (he : t.element? = some e) {d : Datum} {items : List Datum}
      (hd : d.elements? = some items) (h : ∀ i ∈ items, Shapes e i) : Shapes t d

end TypeExpr

/-- Every scalar has the kind of the scalar type that is declared where it stands, and sequences
stand where containers are declared. -/
inductive ResolvedType.Kinds : ResolvedType → Tagged → Prop
  | null (t : ResolvedType) : Kinds t .null
  | scalar {t : ResolvedType} {s : Scalar} (h : t.scalarKind? = some s.kind) : Kinds t (.scalar s)
  | tuple {t e : ResolvedType} (he : t.part? = some e) {items : List Tagged}
      (h : ∀ v ∈ items, Kinds e v) : Kinds t (.tuple items)

namespace ResolvedType

theorem place_of_part {t e : ResolvedType} (h : t.part? = some e) : t.place = e := by
  rcases part?_eq_some h with ⟨k, n, rfl, rfl⟩ | ⟨ht, helement⟩
  · rfl
  · rw [place_of_isGeneric ht, elementOrList, helement]
    rfl

/-- What holds of a value holds of all that stands in it. -/
theorem Kinds.of_stands {t u : ResolvedType} {v w : Tagged} (h : t.Kinds v)
    (hw : Stands t v u w) : u.Kinds w := by
  induction hw with
  | here t v => exact h
  | element ht hv hw ih =>
    cases h with
    | tuple he h =>
      rw [place_of_part he] at ih
      exact ih (h _ hv)

/-- A container writes an element of the declared kind as a place of that type alone would. -/
theorem formatItems_of_scalarKind {u : ResolvedType} {s : Scalar}
    (h : u.scalarKind? = some s.kind) (style : Style) :
    formatItems style (some u) [.scalar s] =
      format style u (.scalar s) >>= fun template => .ok [template] := by
  cases u with
  | primitive k n =>
    obtain rfl : k = s.kind := Option.some.inj h
    rfl
  | string n =>
    have hkind : ScalarKind.string = s.kind := Option.some.inj h
    rw [formatItems, ← hkind]
    rfl
  | primitiveArray k n | array e n | list e n | set e n | named q as c n => cases h

end ResolvedType

namespace Scalar

theorem kind_of_ofInt {k : ScalarKind} (hk : k.isIntegral = true ∨ k.isFloating = true) {n : Int}
    {s : Scalar} (h : ofInt (some k) n = .ok s) : s.kind = k := by
  rcases hk with hk | hk
  · rw [ofInt_of_isIntegral hk] at h
    obtain rfl := Except.ok.inj h
    rfl
  · unfold ofInt at h
    split at h
    · rename_i heq
      cases heq
      cases hk
    · rename_i heq
      cases heq
      split at h
      · obtain rfl := Except.ok.inj h
        rfl
      · split at h
        · obtain rfl := Except.ok.inj h
          rfl
        · cases h
    · rename_i heq
      cases heq

theorem kind_ofFloat {k : ScalarKind} (hk : k.isFloating = true) (x : Number.Binary64) :
    (ofFloat (some k) x).kind = k := by
  cases k <;> first | rfl | cases hk

end Scalar

namespace TypeExpr

theorem scalarKind?_of_primitive {t : TypeExpr} (ht : t.array = false) {b : Builtin}
    (hb : t.Names b) {k : ScalarKind} (hk : b.primitive? = some k) : t.scalarKind? = some k :=
  (scalarKind?_of_names ht hb).trans (Builtin.scalarKind?_of_primitive hk)

theorem Standard.element {t e : TypeExpr} (ht : t.Standard) (he : t.element? = some e) :
    e.Standard := by
  cases harray : t.array with
  | true =>
    obtain rfl : t.unmarked = e := Option.some.inj ((element?_of_array harray).symm.trans he)
    exact ht.unmarked
  | false =>
    cases ht with
    | scalar hb hscalar ha => simp [element?, harray, ha] at he
    | collection hb hc ha h =>
      obtain rfl := Option.some.inj ((element?_of_argument harray ha).symm.trans he)
      exact h

theorem Standard.exists_part {t e : TypeExpr} (ht : t.Standard) (he : t.element? = some e)
    (classes : ClassRegistry) :
    e.Standard ∧ ∃ r full, e.resolve classes = .ok r ∧ t.resolve classes = .ok full ∧
      full.part? = some r := by
  obtain ⟨base, hbase⟩ := ht.resolves classes
  obtain ⟨-, r, hr, hpart⟩ := ht.overBuiltins.exists_part he hbase.marked
  exact ⟨ht.element he, r, _, hr, hbase.marked, hpart⟩

theorem Standard.exists_scalar {t : TypeExpr} (ht : t.Standard) (classes : ClassRegistry)
    (harray : t.array = false) {b : Builtin} (hb : t.Names b) {s : Scalar}
    (hk : b.scalarKind? = some s.kind) :
    ∃ r, t.resolve classes = .ok r ∧ r.Kinds (.scalar s) ∧
      ∀ s' ∈ (Tagged.scalar s).flatten, s'.kind ≠ .other := by
  obtain ⟨r, hr, hkind⟩ := ht.resolve_scalar classes harray hb hk
  refine ⟨r, hr, .scalar hkind, fun s' hs' hother => ?_⟩
  obtain rfl := List.mem_singleton.mp hs'
  rw [hother] at hk
  cases b <;> cases hk

theorem Shapes.kinds {t : TypeExpr} {raw : Datum} (h : t.Shapes raw) (ht : t.Standard)
    (classes : ClassRegistry) : ∀ {v : Tagged}, Tagged.ofDatum (some t) raw = .ok v →
      ∃ r, t.resolve classes = .ok r ∧ r.Kinds v ∧ ∀ s ∈ v.flatten, s.kind ≠ .other := by
  induction h with
  | null t =>
    intro v hv
    obtain rfl := Except.ok.inj hv
    obtain ⟨base, hbase⟩ := ht.resolves classes
    exact ⟨_, hbase.marked, .null _, nofun⟩
  | boolean harray hb b =>
    intro v hv
    obtain rfl := Except.ok.inj hv
    exact ht.exists_scalar classes harray hb rfl
  | integer harray hb hk hnumeric n =>
    intro v hv
    rw [Tagged.ofDatum_int, Option.bind_some, scalarKind?_of_primitive harray hb hk] at hv
    obtain ⟨s, hs, hv⟩ := bind_eq_ok_iff.mp hv
    obtain rfl := Except.ok.inj hv
    obtain rfl := Scalar.kind_of_ofInt hnumeric hs
    exact ht.exists_scalar classes harray hb (Builtin.scalarKind?_of_primitive hk)
  | float harray hb hk hfloating x =>
    intro v hv
    obtain rfl := Except.ok.inj hv
    rw [Option.bind_some, scalarKind?_of_primitive harray hb hk]
    refine ht.exists_scalar classes harray hb ?_
    rw [Scalar.kind_ofFloat hfloating]
    exact Builtin.scalarKind?_of_primitive hk
  | @text t b harray hb h d hd =>
    intro v hv
    have hhint := scalarKind?_of_names harray hb
    have htext : ∃ s, v = .scalar s ∧ b.scalarKind? = some s.kind := by
      cases d with
      | text x | member x =>
        obtain rfl := Except.ok.inj hv
        rw [Option.bind_some, hhint]
        rcases h with rfl | rfl <;> exact ⟨_, rfl, rfl⟩
      | _ => cases hd
    obtain ⟨s, rfl, hk⟩ := htext
    exact ht.exists_scalar classes harray hb hk
  | @sequence t e he d items hd h ih =>
    intro v hv
    obtain ⟨hstandard, r, full, hr, hfull, hpart⟩ := ht.exists_part he classes
    obtain ⟨vs, rfl, harise⟩ := Tagged.ofDatum_sequence hd hv
    have helement : ∀ w ∈ vs, r.Kinds w ∧ ∀ s ∈ w.flatten, s.kind ≠ .other := by
      intro w hw
      obtain ⟨i, hi, hiw⟩ := harise.exists_element hw
      rw [Option.bind_some, he] at hiw
      obtain ⟨r', hr', hkinds⟩ := ih i hi hstandard hiw
      obtain rfl := Except.ok.inj (hr.symm.trans hr')
      exact hkinds
    refine ⟨full, hfull, .tuple hpart fun w hw => (helement w hw).1, fun s hs => ?_⟩
    rw [Tagged.flatten, Tagged.flattenItems_eq] at hs
    obtain ⟨w, hw, hs⟩ := List.mem_flatMap.mp hs
    exact (helement w hw).2 s hs

/-- A value of the shape that its type declares is tagged by that type: the type resolves, and
every scalar of the tagged value has the kind that the resolved type declares at its place. In a
container the scalar is therefore written as the declared type alone would write it. -/
theorem tagged_kinds {t : TypeExpr} (ht : t.Standard) {raw : Datum} (hraw : t.Shapes raw)
    (classes : ClassRegistry) {v : Tagged} (hv : Tagged.ofDatum (some t) raw = .ok v) :
    ∃ r, t.resolve classes = .ok r ∧ r.Kinds v ∧
      ∀ u s, Stands r v u (.scalar s) → u.scalarKind? = some s.kind ∧
        ∀ style : Style, formatItems style (some u) [.scalar s] =
          format style u (.scalar s) >>= fun template => .ok [template] := by
  obtain ⟨r, hr, hkinds, -⟩ := hraw.kinds ht classes hv
  refine ⟨r, hr, hkinds, fun u s hs => ?_⟩
  cases hkinds.of_stands hs with
  | scalar hkind => exact ⟨hkind, formatItems_of_scalarKind hkind⟩

/-- The elements of an array in a set are nullable, and an integer stands for a float. -/
theorem tagged_kinds_boxed :
    Standard ⟨"Set", false, false, [⟨"Float", true, true, []⟩]⟩ ∧
    Shapes ⟨"Set", false, false, [⟨"Float", true, true, []⟩]⟩
      (.frozenSet [.tuple [.int 3, .null]]) ∧
    Tagged.ofDatum (some ⟨"Set", false, false, [⟨"Float", true, true, []⟩]⟩)
        (.frozenSet [.tuple [.int 3, .null]]) =
      .ok (.tuple [.tuple [.scalar ⟨.float, .float (.finite false (3 * Number.Binary64.one))⟩,
        .null]]) ∧
    ∃ r, resolve .empty ⟨"Set", false, false, [⟨"Float", true, true, []⟩]⟩ = .ok r ∧
      r.Kinds (.tuple [.tuple [.scalar ⟨.float, .float (.finite false (3 * Number.Binary64.one))⟩,
        .null]]) := by
  have hfloat (array : Bool) : Names ⟨"Float", array, true, []⟩ .float := by
    cases array <;> decide
  have hset : Names ⟨"Set", false, false, [⟨"Float", true, true, []⟩]⟩ .set := by decide
  have hstandard : Standard ⟨"Set", false, false, [⟨"Float", true, true, []⟩]⟩ :=
    .collection hset (.inr rfl) rfl (.scalar (hfloat true) rfl rfl)
  have hshape : Shapes ⟨"Set", false, false, [⟨"Float", true, true, []⟩]⟩
      (.frozenSet [.tuple [.int 3, .null]]) := by
    apply Shapes.sequence rfl rfl
    intro d hd
    obtain rfl := List.mem_singleton.mp hd
    apply Shapes.sequence rfl rfl
    intro d hd
    simp only [List.mem_cons, List.not_mem_nil, or_false] at hd
    rcases hd with rfl | rfl
    · exact .integer rfl (hfloat false) (k := .float) rfl (.inr rfl) 3
    · exact .null _
  have hthree : Tagged.ofDatum (some ⟨"Float", false, true, []⟩) (.int 3) =
      .ok (.scalar ⟨.float, .float (.finite false (3 * Number.Binary64.one))⟩) := by
    have hhint : scalarKind? ⟨"Float", false, true, []⟩ = some .float := by decide
    have hexact : Number.Binary64.ofInt? 3 = some (.finite false (3 * Number.Binary64.one)) := by
      decide +kernel
    simp [Tagged.ofDatum_int, hhint, Scalar.ofInt, hexact, ScalarKind.isIntegral,
      ScalarKind.width?, ScalarKind.isFloating]
  have hvalue : Tagged.ofDatum (some ⟨"Set", false, false, [⟨"Float", true, true, []⟩]⟩)
        (.frozenSet [.tuple [.int 3, .null]]) =
      .ok (.tuple [.tuple [.scalar ⟨.float, .float (.finite false (3 * Number.Binary64.one))⟩,
        .null]]) := by
    have hitems : Tagged.ofItems (some ⟨"Float", false, true, []⟩) [.int 3, .null] =
        .ok [.scalar ⟨.float, .float (.finite false (3 * Number.Binary64.one))⟩, .null] := by
      rw [Tagged.ofItems_cons, hthree]
      rfl
    simp [Tagged.ofDatum, Tagged.outcomes, element?, hitems, Tagged.sequenceAll]
  obtain ⟨r, hr, hkinds, -⟩ := tagged_kinds hstandard hshape .empty hvalue
  exact ⟨hstandard, hshape, hvalue, r, hr, hkinds⟩

end TypeExpr

end BuildConstants
