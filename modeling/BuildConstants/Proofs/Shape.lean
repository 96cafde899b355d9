import BuildConstants.Proofs.Emission

/-!
# Misplaced sequences

A sequence is misplaced where the declared type is a primitive, a string or a class. It takes one
hole of the template, however many leaves it has; all other values take one hole for each leaf. So
the number of holes is right exactly if misplaced sequences have as many leaves as there are
misplaced sequences.
-/

namespace BuildConstants

open Literal Outcome ResolvedType

theorem Tagged.induction {P : Tagged → Prop} (null : P .null) (scalar : ∀ s, P (.scalar s))
    (tuple : ∀ items, (∀ v ∈ items, P v) → P (.tuple items)) : ∀ v, P v
  | .null => null
  | .scalar s => scalar s
  | .tuple items => tuple items fun v _ => Tagged.induction null scalar tuple v

namespace ResolvedType

/-- The type that a container declares for its elements; primitive arrays declare primitives. -/
def place : ResolvedType → ResolvedType
  | primitiveArray k _ => primitive k false
  | t => t.elementOrList

theorem place_of_isGeneric {t : ResolvedType} (h : t.isGeneric = true) :
    t.place = t.elementOrList := by
  cases t <;> first | rfl | cases h

theorem isSequence_of_isGeneric {t : ResolvedType} (h : t.isGeneric = true) :
    t.isSequence = true := by
  cases t <;> first | rfl | cases h

end ResolvedType

namespace Literal

/-- At type `t`, the value `w` stands in `v` where `u` is declared. -/
inductive Stands : ResolvedType → Tagged → ResolvedType → Tagged → Prop
  | here (t : ResolvedType) (v : Tagged) : Stands t v t v
  | element {t u : ResolvedType} {items : List Tagged} {v w : Tagged} (ht : t.isSequence = true)
      (hv : v ∈ items) (h : Stands t.place v u w) : Stands t (.tuple items) u w

mutual

/-- The sequences that stand where no sequence is declared. -/
def misplaced (t : ResolvedType) : Tagged → List Tagged
  | .null | .scalar _ => []
  | .tuple items => if t.isSequence then misplacedItems t.place items else [.tuple items]

def misplacedItems (t : ResolvedType) : List Tagged → List Tagged
  | [] => []
  | v :: rest => misplaced t v ++ misplacedItems t rest

end

@[simp] theorem misplacedItems_eq (t : ResolvedType) (items : List Tagged) :
    misplacedItems t items = items.flatMap (misplaced t) := by
  induction items with
  | nil => rfl
  | cons v rest ih => simp [misplacedItems, ih]

theorem misplaced_of_isSequence {t : ResolvedType} (h : t.isSequence = true)
    (items : List Tagged) : misplaced t (.tuple items) = items.flatMap (misplaced t.place) := by
  simp [misplaced, h]

theorem misplaced_of_not_isSequence {t : ResolvedType} (h : t.isSequence = false)
    (items : List Tagged) : misplaced t (.tuple items) = [.tuple items] := by
  simp [misplaced, h]

theorem Stands.mem_misplaced {t u : ResolvedType} {v w : Tagged} (h : Stands t v u w)
    (hu : u.isSequence = false) {items : List Tagged} (hw : w = .tuple items) :
    w ∈ misplaced t v := by
  induction h with
  | here t v =>
    rw [hw, misplaced_of_not_isSequence hu]
    exact List.mem_singleton_self _
  | element ht hv h ih =>
    rw [misplaced_of_isSequence ht]
    exact List.mem_flatMap.mpr ⟨_, hv, ih hu hw⟩

theorem stands_of_mem_misplaced {v w : Tagged} (t : ResolvedType) (h : w ∈ misplaced t v) :
    ∃ u items, w = .tuple items ∧ Stands t v u w ∧ u.isSequence = false := by
  induction v using Tagged.induction generalizing t with
  | null => simp [misplaced] at h
  | scalar s => simp [misplaced] at h
  | tuple items ih =>
    cases ht : t.isSequence with
    | false =>
      rw [misplaced_of_not_isSequence ht] at h
      obtain rfl := List.mem_singleton.mp h
      exact ⟨t, items, rfl, .here t _, ht⟩
    | true =>
      rw [misplaced_of_isSequence ht] at h
      obtain ⟨v, hv, hw⟩ := List.mem_flatMap.mp h
      obtain ⟨u, inner, hinner, hstands, hu⟩ := ih v hv t.place hw
      exact ⟨u, inner, hinner, .element ht hv hstands, hu⟩

def leaves (vs : List Tagged) : Nat :=
  (vs.flatMap Tagged.flatten).length

@[simp] theorem leaves_append (vs ws : List Tagged) :
    leaves (vs ++ ws) = leaves vs + leaves ws := by
  simp [leaves]

/-- A value whose misplaced sequences have one leaf each on average: its template has the right
number of holes nevertheless. -/
def Evades (t : ResolvedType) (v : Tagged) : Prop :=
  misplaced t v ≠ [] ∧ leaves (misplaced t v) = (misplaced t v).length

def total (parts : List Template) : Nat :=
  parts.foldr (fun part n => part.count + n) 0

section Count

variable {style : Style} {form : ScalarKind → Form}

/-- The count of a template is off by the leaves that its misplaced sequences lack or have too
many. -/
def Balanced (template : Template) (t : ResolvedType) (v : Tagged) : Prop :=
  template.count + leaves (misplaced t v) = v.flatten.length + (misplaced t v).length

theorem Style.Regular.scalar_count (hs : style.Regular form) (k : ScalarKind) :
    (style.scalar k).count = 1 := by
  have h := (hs.scalar_prints k ⟨k, .null⟩).count
  simpa using h

theorem balanced_of_not_isSequence {t : ResolvedType} (ht : t.isSequence = false)
    {template : Template} (hcount : template.count = 1) {v : Tagged} (hv : v ≠ .null) :
    Balanced template t v := by
  cases v with
  | null => exact absurd rfl hv
  | scalar s => simp [Balanced, misplaced, leaves, Tagged.flatten, hcount]
  | tuple items =>
    rw [Balanced, misplaced_of_not_isSequence ht, hcount]
    simp [leaves]
    omega

theorem total_balanced {u : ResolvedType} {f : Tagged → Except Fault Template}
    {items : List Tagged} (h : ∀ v ∈ items, ∀ part, f v = .ok part → Balanced part u v)
    {parts : List Template} (hparts : collect f items = .ok parts) :
    total parts + leaves (items.flatMap (misplaced u)) =
      (items.flatMap Tagged.flatten).length + (items.flatMap (misplaced u)).length := by
  induction items generalizing parts with
  | nil =>
    obtain rfl := Except.ok.inj hparts
    simp [total, leaves]
  | cons v rest ih =>
    obtain ⟨part, others, hpart, hothers, rfl⟩ := collect_cons_eq_ok hparts
    have hv := h v List.mem_cons_self part hpart
    have hrest := ih (fun w hw => h w (List.mem_cons_of_mem v hw)) hothers
    simp only [Balanced] at hv
    simp only [total, List.foldr_cons, List.flatMap_cons, leaves_append,
      List.length_append] at hrest ⊢
    omega

theorem formatItems_eq_collect (style : Style) (e : Option ResolvedType) (items : List Tagged) :
    formatItems style e items = collect (formatElement style e) items := by
  induction items with
  | nil => rfl
  | cons v rest ih => rw [formatItems_cons, collect, ih]

theorem collect_const {β : Type} (b : β) (items : List Tagged) :
    collect (fun _ => .ok b) items = .ok (items.map fun _ => b) := by
  induction items with
  | nil => rfl
  | cons v rest ih => simp [collect, ih]

/-- The brackets around the elements of a sequence. -/
def Style.brackets (style : Style) : ResolvedType → Except Fault Template.Brackets
  | .primitiveArray k _ => .ok (style.primitiveArray k)
  | .array e _ => style.genericArray e
  | .set .. => .ok style.set
  | _ => .ok style.list

theorem format_generic {t : ResolvedType} (ht : t.isGeneric = true) {items : List Tagged}
    {template : Template} (h : format style t (.tuple items) = .ok template) :
    ∃ parts brackets, collect (formatElement style t.element?) items = .ok parts ∧
      style.brackets t = .ok brackets ∧ template = .join style.separator brackets parts := by
  cases t with
  | array e n =>
    rw [format, formatItems_eq_collect] at h
    obtain ⟨parts, hparts, h⟩ := bind_eq_ok_iff.mp h
    obtain ⟨b, hb, h⟩ := bind_eq_ok_iff.mp h
    exact ⟨parts, b, hparts, hb, (Except.ok.inj h).symm⟩
  | list e n =>
    rw [format, formatItems_eq_collect] at h
    obtain ⟨parts, hparts, h⟩ := bind_eq_ok_iff.mp h
    exact ⟨parts, _, hparts, rfl, (Except.ok.inj h).symm⟩
  | set e n =>
    rw [format, formatItems_eq_collect] at h
    obtain ⟨parts, hparts, h⟩ := bind_eq_ok_iff.mp h
    exact ⟨parts, _, hparts, rfl, (Except.ok.inj h).symm⟩
  | primitive k n | string n | primitiveArray k n | named q as c n => cases ht

/-- The template of a primitive array has one hole for each element, and none of them is null. -/
theorem format_primitiveArray {k : ScalarKind} {n : Bool} {items : List Tagged}
    {template : Template} (h : format style (.primitiveArray k n) (.tuple items) = .ok template) :
    (∀ v ∈ items, v ≠ .null) ∧ template = .join style.separator (style.primitiveArray k)
      (items.map fun _ => style.scalar k) := by
  rw [format] at h
  split at h
  · cases h
  · rename_i hnull
    refine ⟨?_, (Except.ok.inj h).symm⟩
    rintro v hv rfl
    exact hnull (List.any_eq_true.mpr ⟨.null, hv, rfl⟩)

theorem format_scalar_count (hs : style.Regular form) {t : ResolvedType} {s : Scalar}
    {template : Template} (h : format style t (.scalar s) = .ok template) : template.count = 1 := by
  cases t with
  | primitive k n | string n | named q as c n =>
    obtain rfl := Except.ok.inj h
    exact hs.scalar_count _
  | primitiveArray k n | list e n | set e n =>
    obtain rfl := Except.ok.inj h
    simp [Template.join, hs.scalar_count]
  | array e n =>
    obtain ⟨b, -, h⟩ := bind_eq_ok_iff.mp h
    obtain rfl := Except.ok.inj h
    simp [Template.join, hs.scalar_count]

theorem format_balanced (hs : style.Regular form) {v : Tagged} :
    ∀ {t : ResolvedType} {template : Template}, format style t v = .ok template →
      Balanced template t v := by
  induction v using Tagged.induction with
  | null =>
    intro t template h
    obtain rfl := Except.ok.inj h
    simp [Balanced, misplaced, leaves, Tagged.flatten]
  | scalar s =>
    intro t template h
    simp [Balanced, misplaced, leaves, Tagged.flatten, format_scalar_count hs h]
  | tuple items ih =>
    intro t template h
    have helement {e : Option ResolvedType} : ∀ v ∈ items, ∀ part,
        formatElement style e v = .ok part → Balanced part (e.getD (.list none false)) v := by
      intro v hv part hpart
      cases v with
      | null =>
        obtain rfl := Except.ok.inj hpart
        simp [Balanced, misplaced, leaves, Tagged.flatten]
      | scalar s =>
        obtain rfl := Except.ok.inj hpart
        simp [Balanced, misplaced, leaves, Tagged.flatten, hs.scalar_count]
      | tuple inner =>
        simp only [formatElement] at hpart
        split at hpart
        · exact ih _ hv hpart
        · rename_i hsequence
          -- The element is taken whole: one hole, whatever its leaves.
          obtain rfl := Except.ok.inj hpart
          exact balanced_of_not_isSequence (Bool.eq_false_iff.mpr hsequence) rfl (by simp)
    have hgeneric (ht : t.isGeneric = true) : Balanced template t (.tuple items) := by
      obtain ⟨parts, brackets, hparts, -, rfl⟩ := format_generic ht h
      rw [Balanced, misplaced_of_isSequence (isSequence_of_isGeneric ht), place_of_isGeneric ht,
        Tagged.flatten, Tagged.flattenItems_eq]
      exact total_balanced helement hparts
    cases t with
    | primitive k n =>
      obtain rfl := Except.ok.inj h
      exact balanced_of_not_isSequence rfl (hs.scalar_count k) (by simp)
    | string n =>
      obtain rfl := Except.ok.inj h
      exact balanced_of_not_isSequence rfl (hs.scalar_count .string) (by simp)
    | named q as c n =>
      obtain rfl := Except.ok.inj h
      exact balanced_of_not_isSequence rfl rfl (by simp)
    | primitiveArray k n =>
      obtain ⟨hnull, rfl⟩ := format_primitiveArray h
      rw [Balanced, misplaced_of_isSequence rfl, Tagged.flatten, Tagged.flattenItems_eq]
      have hitem : ∀ v ∈ items, ∀ part, (.ok (style.scalar k) : Except Fault Template) = .ok part →
          Balanced part (.primitive k false) v := by
        intro v hv part hpart
        obtain rfl := Except.ok.inj hpart
        exact balanced_of_not_isSequence rfl (hs.scalar_count k) (hnull v hv)
      exact total_balanced hitem (collect_const (style.scalar k) items)
    | array e n | list e n | set e n => exact hgeneric rfl

/-- The count check is passed exactly if misplaced sequences have as many leaves as there are
misplaced sequences. -/
theorem count_eq_iff (hs : style.Regular form) {t : ResolvedType} {v : Tagged}
    {template : Template} (h : format style t v = .ok template) :
    template.count = v.flatten.length ↔ leaves (misplaced t v) = (misplaced t v).length := by
  have hbalanced := format_balanced hs h
  rw [Balanced] at hbalanced
  omega

theorem fits_of_format {v : Tagged} : ∀ {t : ResolvedType} {template : Template},
    format style t v = .ok template → misplaced t v = [] → Fits t v := by
  induction v using Tagged.induction with
  | null =>
    intro t template h hm
    exact .null t
  | scalar s =>
    intro t template h hm
    exact .scalar t s
  | tuple items ih =>
    intro t template h hm
    have hsequence : t.isSequence = true := by
      cases ht : t.isSequence with
      | true => rfl
      | false => simp [misplaced_of_not_isSequence ht] at hm
    rw [misplaced_of_isSequence hsequence, List.flatMap_eq_nil_iff] at hm
    have hgeneric (ht : t.isGeneric = true) : Fits t (.tuple items) := by
      obtain ⟨parts, brackets, hparts, -, -⟩ := format_generic ht h
      rw [place_of_isGeneric ht] at hm
      refine .generic ht fun v hv => ?_
      obtain ⟨part, hpart⟩ := exists_of_collect hparts hv
      cases v with
      | null => exact .null _
      | scalar s => exact .scalar _ s
      | tuple inner =>
        have hinner : t.elementOrList.isSequence = true := by
          cases hi : t.elementOrList.isSequence with
          | true => rfl
          | false => simpa [misplaced_of_not_isSequence hi] using hm _ hv
        have hpart : (if t.elementOrList.isSequence then format style t.elementOrList (.tuple inner)
            else .ok .whole) = .ok part := hpart
        rw [if_pos hinner] at hpart
        exact ih _ hv hpart (hm _ hv)
    cases t with
    | primitive k n | string n | named q as c n => cases hsequence
    | primitiveArray k n =>
      obtain ⟨hnull, -⟩ := format_primitiveArray h
      refine .primitiveArray k n fun v hv => ?_
      cases v with
      | null => exact absurd rfl (hnull _ hv)
      | scalar s => exact ⟨s, rfl⟩
      | tuple inner =>
        have hmisplaced := hm _ hv
        rw [ResolvedType.place, misplaced_of_not_isSequence rfl] at hmisplaced
        cases hmisplaced
    | array e n | list e n | set e n => exact hgeneric rfl

end Count

end Literal

namespace Language

/-- A literal that is emitted and does not evade the count check has sequences only where
sequences are declared, and its text is the direct one. A literal that evades the check is
emitted with its misplaced sequences. -/
theorem emit_shape (l : Language) (classes : ClassRegistry) (name : String) (type : TypeExpr)
    (v : Tagged) :
    (∀ d, l.dialect.emit ⟨name, type, .literal v⟩ classes = .ok d → ¬ Evades d.type v →
      (∀ u items, Stands d.type v u (.tuple items) → u.isSequence = true) ∧
      ((l = .java → ∀ q ∈ d.type.classNames, PercentFree q) →
        l.print d.type v = .ok d.initializer)) ∧
    ∀ n t template text, l.dialect.identifier name = .ok n → type.resolve classes = .ok t →
      format l.dialect.style ((Initial.literal v).adapt t) v = .ok template →
      render l.dialect.style template.text v.flatten = .ok text →
      Evades ((Initial.literal v).adapt t) v →
      ∃ d u items, l.dialect.emit ⟨name, type, .literal v⟩ classes = .ok d ∧
        d.initializer = text ∧ Stands d.type v u (.tuple items) ∧ u.isSequence = false := by
  constructor
  · intro d hd hevades
    obtain ⟨n, t, text, hname, ht, htext, rfl⟩ := Dialect.emit_eq_ok_iff.mp hd
    obtain ⟨template, hformat, hcount, hrender⟩ := Dialect.initializer_literal_eq_ok_iff.mp htext
    have hm : misplaced ((Initial.literal v).adapt t) v = [] := by
      refine Classical.byContradiction fun hm => hevades ⟨hm, ?_⟩
      exact (count_eq_iff l.style_regular hformat).mp hcount
    constructor
    · intro u items hstands
      cases hu : u.isSequence with
      | true => rfl
      | false =>
        have hmem := hstands.mem_misplaced hu rfl
        rw [hm] at hmem
        cases hmem
    · intro hq
      have hallows : l.Allows t := by
        refine allows_of_resolve ht fun hl => ?_
        have hq := hq hl
        rwa [classNames_adapt] at hq
      have hfits := fits_of_format hformat hm
      rw [← initializer_eq_print hfits (allows_adapt hallows _) name]
      exact htext
  · intro n t template text hname ht hformat hrender hevades
    have hcount := (count_eq_iff l.style_regular hformat).mpr hevades.2
    have htext : l.dialect.initializer name ((Initial.literal v).adapt t) (.literal v) = .ok text :=
      Dialect.initializer_literal_eq_ok_iff.mpr ⟨template, hformat, hcount, hrender⟩
    have hemit := (Dialect.emit_eq_ok_iff (c := ⟨name, type, .literal v⟩)).mpr
      ⟨n, t, text, hname, ht, htext, rfl⟩
    obtain ⟨w, hw⟩ := List.exists_mem_of_ne_nil _ hevades.1
    obtain ⟨u, items, rfl, hstands, hu⟩ := stands_of_mem_misplaced _ hw
    exact ⟨_, u, items, hemit, rfl, hstands, hu⟩

theorem emit_shape_nested :
    kotlin.dialect.emit ⟨"X", ⟨"List", false, false, [⟨"int", true, false, []⟩]⟩,
        .literal (.tuple [.tuple [.scalar ⟨.int, .int 1⟩, .scalar ⟨.int, .int 2⟩], .tuple []])⟩
        .empty =
      .ok ⟨"X", .list (some (.primitiveArray .int false)) false,
        "listOf(intArrayOf(1, 2), intArrayOf())", false⟩ ∧
    (∀ u items, Stands (.list (some (.primitiveArray .int false)) false)
      (.tuple [.tuple [.scalar ⟨.int, .int 1⟩, .scalar ⟨.int, .int 2⟩], .tuple []]) u
      (.tuple items) → u.isSequence = true) ∧
    kotlin.print (.list (some (.primitiveArray .int false)) false)
        (.tuple [.tuple [.scalar ⟨.int, .int 1⟩, .scalar ⟨.int, .int 2⟩], .tuple []]) =
      .ok "listOf(intArrayOf(1, 2), intArrayOf())" := by
  have hemit : kotlin.dialect.emit ⟨"X", ⟨"List", false, false, [⟨"int", true, false, []⟩]⟩,
        .literal (.tuple [.tuple [.scalar ⟨.int, .int 1⟩, .scalar ⟨.int, .int 2⟩], .tuple []])⟩
        .empty =
      .ok ⟨"X", .list (some (.primitiveArray .int false)) false,
        "listOf(intArrayOf(1, 2), intArrayOf())", false⟩ := rfl
  obtain ⟨hshape, hprint⟩ := (emit_shape kotlin .empty "X" _ _).1 _ hemit fun h => h.1 rfl
  exact ⟨hemit, hshape, hprint fun hl => by cases hl⟩

/-- A nested text becomes code, and a nested array is dropped. -/
theorem emit_of_misplaced :
    (∃ d, kotlin.dialect.emit ⟨"X", ⟨"List", false, false, [⟨"String", false, false, []⟩]⟩,
        .literal (.tuple [.tuple [.scalar ⟨.string, .text "a"⟩]])⟩ .empty = .ok d ∧
      d.initializer = "listOf(a)" ∧
      Stands d.type (.tuple [.tuple [.scalar ⟨.string, .text "a"⟩]]) (.string false)
        (.tuple [.scalar ⟨.string, .text "a"⟩])) ∧
    ∃ d, kotlin.dialect.emit ⟨"X", ⟨"int", true, false, []⟩,
        .literal (.tuple [.tuple [.scalar ⟨.int, .int 1⟩, .scalar ⟨.int, .int 2⟩], .tuple []])⟩
        .empty = .ok d ∧
      d.initializer = "intArrayOf(1, 2)" ∧
      Stands d.type
        (.tuple [.tuple [.scalar ⟨.int, .int 1⟩, .scalar ⟨.int, .int 2⟩], .tuple []])
        (.primitive .int false) (.tuple []) := by
  constructor
  · refine ⟨_, rfl, rfl, .element rfl List.mem_cons_self (.here _ _)⟩
  · refine ⟨_, rfl, rfl, .element rfl (List.mem_cons_of_mem _ List.mem_cons_self) (.here _ _)⟩

end Language

end BuildConstants
