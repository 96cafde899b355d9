import BuildConstants.Proofs.Shape
import BuildConstants.Proofs.Tagging

/-!
# Checks of leaves under declared primitives

The declared primitive chooses the rule, but a plain rule checks a leaf by the tag that the leaf
carries; only a declared char checks all leaves alike. So a declared primitive bounds the leaves
with its own tag, the integers of an untagged value among them, and not those with other tags.
-/

namespace BuildConstants

open Literal Outcome ResolvedType

/-- A legal value of the kind. Any value is a legal text, since a text shows what it is given. -/
def ScalarKind.Accepts (k : ScalarKind) (d : Datum) : Prop :=
  match k with
  | .boolean => ∃ b, d = .bool b
  | .byte | .short | .int | .long => ∃ n, d = .int n ∧ k.inRange n = true
  | .char => ∃ c, d.display.toList = [c] ∧ Text.codePoint c ≤ 0xffff
  | .float => ∃ x, d.toDouble = .ok x ∧ x.isFinite = true ∧ fitsFloat x = true
  | .double => ∃ x, d.toDouble = .ok x ∧ x.isFinite = true
  | .string | .other => True

theorem ScalarKind.inRange_of_accepts {k : ScalarKind} (hk : k.isIntegral = true) {n : Int}
    (h : k.Accepts (.int n)) : k.inRange n = true := by
  cases k with
  | byte | short | int | long =>
    obtain ⟨m, hm, hrange⟩ := h
    obtain rfl := Datum.int.inj hm
    exact hrange
  | boolean | char | float | double | string | other => cases hk

/-- A primitive of the kind, or an array of such primitives. -/
inductive ResolvedType.PrimitiveOf (k : ScalarKind) : ResolvedType → Prop
  | single (n : Bool) : PrimitiveOf k (.primitive k n)
  | array (n : Bool) : PrimitiveOf k (.primitiveArray k n)

namespace Literal

theorem accepts_of_plainInteger {k : ScalarKind} {d : Datum} {text : String}
    (h : plainInteger k d = .ok text) : ∃ n, d = .int n ∧ k.inRange n = true := by
  unfold plainInteger at h
  split at h
  · rename_i n
    split at h
    · rename_i hn
      exact ⟨n, rfl, hn⟩
    · cases h
  · cases h

theorem accepts_of_plainFloating {k : ScalarKind} {d : Datum} {text : String}
    (h : plainFloating k d = .ok text) :
    ∃ x, d.toDouble = .ok x ∧ x.isFinite = true ∧ (k = .float → fitsFloat x = true) := by
  unfold plainFloating at h
  split at h
  · cases h
  · rename_i x hx
    split at h
    · cases h
    · rename_i hfinite
      split at h
      · cases h
      · rename_i hfits
        refine ⟨x, hx, by simpa using hfinite, fun hk => ?_⟩
        simpa [hk] using hfits

/-- A plain rule checks a leaf by its tag. A leaf that is tagged as a char is text there. -/
theorem accepts_of_plain {s : Scalar} {text : String} (h : plain s = .ok text)
    (hchar : s.kind ≠ .char) : s.kind.Accepts s.value := by
  obtain ⟨k, d⟩ := s
  cases k with
  | boolean =>
    have h : plainBoolean d = .ok text := h
    unfold plainBoolean at h
    split at h
    · exact ⟨_, rfl⟩
    · cases h
  | byte | short | int | long => exact accepts_of_plainInteger h
  | float =>
    obtain ⟨x, hx, hfinite, hfits⟩ := accepts_of_plainFloating h
    exact ⟨x, hx, hfinite, hfits rfl⟩
  | double =>
    obtain ⟨x, hx, hfinite, -⟩ := accepts_of_plainFloating h
    exact ⟨x, hx, hfinite⟩
  | char => exact absurd rfl hchar
  | string | other => trivial

theorem accepts_of_charOf {d : Datum} {c : Char} (h : charOf d = .ok c) :
    ScalarKind.char.Accepts d := by
  unfold charOf at h
  split at h
  · rename_i c' hc
    split at h
    · rename_i hcode
      exact ⟨c', hc, hcode⟩
    · cases h
  · cases h

section Written

variable {style : Style} {form : ScalarKind → Form}

/-- Equal holes print the leaves one by one, whatever sequences the leaves come from. -/
theorem replicate_prints (hs : style.Regular form) (k : ScalarKind) (args : List Scalar) :
    PrintsAll style (List.replicate args.length (style.scalar k)) args
      (collect ((form k).write style) args) := by
  induction args with
  | nil => exact .nil
  | cons s rest ih => exact PrintsAll.cons (hs.scalar_prints k s) ih

theorem total_replicate {part : Template} (h : part.count = 1) (n : Nat) :
    total (List.replicate n part) = n := by
  induction n with
  | zero => rfl
  | succ n ih =>
    rw [total] at ih
    rw [List.replicate_succ, total, List.foldr_cons, ih, h, Nat.add_comm]

theorem collect_of_join (hs : style.Regular form) {k : ScalarKind} {args : List Scalar}
    {text : String} (h : render style (Template.join style.separator (style.primitiveArray k)
      (List.replicate args.length (style.scalar k))).text args = .ok text) :
    ∃ texts, collect ((form k).write style) args = .ok texts := by
  have hall := (replicate_prints hs k args).join hs.separator (hs.primitiveArray k)
  rw [hall.render_eq] at h
  obtain ⟨texts, htexts, -⟩ := bind_eq_ok_iff.mp h
  exact ⟨texts, htexts⟩

/-- The rule of the declared primitive wrote every leaf of a literal that has a text. -/
theorem leaves_written (hs : style.Regular form) {k : ScalarKind} {t : ResolvedType}
    (hk : t.PrimitiveOf k) {v : Tagged} (hv : v ≠ .null) {template : Template}
    (hformat : format style t v = .ok template) (hcount : template.count = v.flatten.length)
    {text : String} (hrender : render style template.text v.flatten = .ok text) :
    ∃ texts, collect ((form k).write style) v.flatten = .ok texts := by
  cases hk with
  | single n =>
    have htemplate : template = style.scalar k := by
      cases v with
      | null => exact absurd rfl hv
      | scalar s => exact (Except.ok.inj hformat).symm
      | tuple items => exact (Except.ok.inj hformat).symm
    rw [htemplate, hs.scalar_count] at hcount
    obtain ⟨s, hleaf⟩ := List.length_eq_one_iff.mp hcount.symm
    rw [htemplate, hleaf, (hs.scalar_prints k s).render_eq] at hrender
    exact ⟨[text], by simp [hleaf, collect, hrender]⟩
  | array n =>
    cases v with
    | null => exact absurd rfl hv
    | scalar s =>
      obtain rfl := Except.ok.inj hformat
      exact collect_of_join hs hrender
    | tuple items =>
      -- Elements may be sequences, but the count says that there is one hole for each leaf.
      obtain ⟨-, rfl⟩ := format_primitiveArray hformat
      rw [List.map_const'] at hcount hrender
      have hlength : items.length = (Tagged.tuple items).flatten.length :=
        (total_replicate (hs.scalar_count k) items.length).symm.trans hcount
      rw [hlength] at hrender
      exact collect_of_join hs hrender

end Written

end Literal

namespace ResolvedType

theorem PrimitiveOf.of_withNullable {k : ScalarKind} {t : ResolvedType} {n : Bool}
    (h : (t.withNullable n).PrimitiveOf k) : t.PrimitiveOf k := by
  cases t with
  | primitive k' m =>
    cases h
    exact .single m
  | primitiveArray k' m =>
    cases h
    exact .array m
  | string m | array e m | list e m | set e m | named q as c m => cases h

theorem PrimitiveOf.of_mark {k : ScalarKind} {t : ResolvedType} {array nullable : Bool}
    (h : (t.mark array nullable).PrimitiveOf k) : t.PrimitiveOf k := by
  have hmarked (h : (if nullable then t.withNullable true else t).PrimitiveOf k) :
      t.PrimitiveOf k := by
    split at h
    · exact h.of_withNullable
    · exact h
  rw [mark] at h
  split at h
  · split at h
    · rename_i heq
      rw [← heq] at h
      exact hmarked h
    · cases h
  · exact hmarked h

theorem not_primitiveOf_of_withArguments {k : ScalarKind} {t full : ResolvedType}
    {name : String} {arguments : List ResolvedType}
    (h : t.withArguments name arguments = .ok full) : ¬ full.PrimitiveOf k := by
  intro hk
  unfold withArguments at h
  split at h
  · split at h
    · obtain rfl := Except.ok.inj h
      cases hk
    · cases h
  · split at h
    · obtain rfl := Except.ok.inj h
      cases hk
    · cases h
  · obtain rfl := Except.ok.inj h
    cases hk
  · cases h

/-- Only built-in names give primitives, and primitive arrays only where arrays are declared. -/
theorem exists_builtin_of_primitiveOf {classes : ClassRegistry} {name : String}
    {array nullable : Bool} {t : ResolvedType} (h : ofName name array nullable classes = .ok t)
    {k : ScalarKind} (hk : t.PrimitiveOf k) :
    ∃ b, Builtin.ofName? name = some b ∧ b.primitive? = some k ∧
      (t.mark array nullable).isSequence = array := by
  rw [ofName] at h
  split at h
  · rename_i b hb
    obtain rfl := Except.ok.inj h
    refine ⟨b, hb, ?_⟩
    cases b <;> cases array <;> cases nullable <;> cases hk <;> exact ⟨rfl, rfl⟩
  · split at h
    · obtain rfl := Except.ok.inj h
      cases hk
    · cases h

end ResolvedType

namespace TypeExpr

theorem builtin_of_resolve {classes : ClassRegistry} {type : TypeExpr} {t : ResolvedType}
    (h : type.resolve classes = .ok t) {k : ScalarKind} (hk : t.PrimitiveOf k) :
    ∃ b, type.Names b ∧ b.primitive? = some k ∧ t.isSequence = type.array := by
  obtain ⟨name, array, nullable, arguments⟩ := type
  cases arguments with
  | nil =>
    rw [resolve_nil] at h
    obtain ⟨base, hbase, h⟩ := bind_eq_ok_iff.mp h
    obtain rfl := Except.ok.inj h
    exact exists_builtin_of_primitiveOf hbase hk.of_mark
  | cons a rest =>
    rw [resolve_cons] at h
    obtain ⟨base, -, h⟩ := bind_eq_ok_iff.mp h
    obtain ⟨first, -, h⟩ := bind_eq_ok_iff.mp h
    obtain ⟨others, -, h⟩ := bind_eq_ok_iff.mp h
    obtain ⟨full, hfull, h⟩ := bind_eq_ok_iff.mp h
    obtain rfl := Except.ok.inj h
    exact absurd hk.of_mark (not_primitiveOf_of_withArguments hfull)

end TypeExpr

theorem Builtin.isPrimitive_of_primitive {b : Builtin} {k : ScalarKind}
    (h : b.primitive? = some k) : k.isPrimitive = true := by
  cases b <;> cases h <;> rfl

theorem Builtin.scalarKind?_of_primitive {b : Builtin} {k : ScalarKind}
    (h : b.primitive? = some k) : b.scalarKind? = some k := by
  cases b <;> first | exact h | cases h

/-- The integer stands alone where a primitive is declared, or is an element of a sequence where
a primitive array is. -/
inductive Datum.HoldsInteger (n : Int) : ResolvedType → Datum → Prop
  | single (k : ScalarKind) (m : Bool) : HoldsInteger n (.primitive k m) (.int n)
  | element (k : ScalarKind) (m : Bool) {d : Datum} {items : List Datum}
      (hd : d.elements? = some items) (hn : .int n ∈ items) :
      HoldsInteger n (.primitiveArray k m) d

namespace Tagged

theorem ofDatum_integer {type : TypeExpr} {k : ScalarKind} (hkind : type.scalarKind? = some k)
    (hk : k.isIntegral = true) (n : Int) :
    ofDatum (some type) (.int n) = .ok (.scalar ⟨k, .int n⟩) := by
  rw [ofDatum_int, Option.bind_some, hkind, Scalar.ofInt_of_isIntegral hk]
  rfl

theorem mem_flatten_of_holdsInteger {classes : ClassRegistry} {type : TypeExpr} {t : ResolvedType}
    (ht : type.resolve classes = .ok t) {k : ScalarKind} (hk : t.PrimitiveOf k)
    (hintegral : k.isIntegral = true) {raw : Datum} {n : Int} (hn : raw.HoldsInteger n t)
    {v : Tagged} (hv : ofDatum (some type) raw = .ok v) : ⟨k, .int n⟩ ∈ v.flatten := by
  obtain ⟨b, hb, hprimitive, harray⟩ := TypeExpr.builtin_of_resolve ht hk
  have hkind := Builtin.scalarKind?_of_primitive hprimitive
  cases hn with
  | single k' m =>
    have hdeclared : type.scalarKind? = some k :=
      (TypeExpr.scalarKind?_of_names harray.symm hb).trans hkind
    rw [ofDatum_integer hdeclared hintegral] at hv
    obtain rfl := Except.ok.inj hv
    exact List.mem_singleton_self _
  | element k' m hd hmem =>
    have hunmarked : type.unmarked.Names b := hb
    have hdeclared : type.unmarked.scalarKind? = some k :=
      (TypeExpr.scalarKind?_of_names rfl hunmarked).trans hkind
    obtain ⟨vs, rfl, harise⟩ := ofDatum_sequence hd hv
    obtain ⟨w, hw, hew⟩ := harise.exists_value hmem
    rw [Option.bind_some, TypeExpr.element?_of_array harray.symm,
      ofDatum_integer hdeclared hintegral] at hew
    obtain rfl := Except.ok.inj hew
    rw [flatten, flattenItems_eq]
    exact List.mem_flatMap.mpr ⟨_, hw, List.mem_singleton_self _⟩

end Tagged

namespace Language

/-- Kotlin writes a long by its own words if the value equals the least long, and does not ask
whether the value is an integer. -/
def TakesAsLeast (l : Language) (s : Scalar) : Prop :=
  l = .kotlin ∧ s.kind = .long ∧ s.value.equalsInt Kotlin.longMin = true

theorem inRange_of_takesAsLeast {l : Language} {k : ScalarKind} {n : Int}
    (h : l.TakesAsLeast ⟨k, .int n⟩) : k.inRange n = true := by
  obtain ⟨-, hlong, hleast⟩ := h
  obtain rfl : k = .long := hlong
  obtain rfl : Kotlin.longMin = n := by simpa [Datum.equalsInt] using hleast
  decide

theorem accepts_of_plain (l : Language) {s : Scalar} {text : String}
    (h : l.dialect.style.plain s = .ok text) (hchar : s.kind ≠ .char) :
    s.kind.Accepts s.value ∨ l.TakesAsLeast s := by
  cases l with
  | java => exact .inl (Literal.accepts_of_plain h hchar)
  | kotlin =>
    have h : Kotlin.plain s = .ok text := h
    rw [Kotlin.plain] at h
    split at h
    · rename_i hleast
      rw [Bool.and_eq_true, decide_eq_true_eq] at hleast
      exact .inr ⟨rfl, hleast⟩
    · exact .inl (Literal.accepts_of_plain h hchar)

theorem accepts_of_write_char (l : Language) {s : Scalar} {text : String}
    (h : (l.form .char).write l.dialect.style s = .ok text) :
    ScalarKind.char.Accepts s.value := by
  have hhole : (l.form .char).hole = .char := by cases l <;> rfl
  obtain ⟨spelled, hspell, -⟩ := bind_eq_ok_iff.mp h
  rw [hhole] at hspell
  obtain ⟨c, hc, -⟩ := bind_eq_ok_iff.mp hspell
  exact accepts_of_charOf hc

theorem accepts_of_write (l : Language) {k : ScalarKind} (hk : k.isPrimitive = true)
    (hne : k ≠ .char) {s : Scalar} {text : String}
    (h : (l.form k).write l.dialect.style s = .ok text) (hchar : s.kind ≠ .char) :
    s.kind.Accepts s.value ∨ l.TakesAsLeast s := by
  have hhole : (l.form k).hole = .plain := by
    cases l <;> cases k <;> first | rfl | exact absurd rfl hne | cases hk
  obtain ⟨spelled, hspell, -⟩ := bind_eq_ok_iff.mp h
  rw [hhole] at hspell
  exact l.accepts_of_plain hspell hchar

theorem leaves_of_emit {l : Language} {classes : ClassRegistry} {name : String} {type : TypeExpr}
    {v : Tagged} (hv : v ≠ .null) {d : Declaration}
    (hd : l.dialect.emit ⟨name, type, .literal v⟩ classes = .ok d) {t : ResolvedType}
    (ht : type.resolve classes = .ok t) {k : ScalarKind} (hk : t.PrimitiveOf k) :
    ∀ s ∈ v.flatten, ∃ text, (l.form k).write l.dialect.style s = .ok text := by
  obtain ⟨n, t', text, -, ht', htext, -⟩ := Dialect.emit_eq_ok_iff.mp hd
  obtain rfl := Except.ok.inj (ht.symm.trans ht')
  have hadapt : (Initial.literal v).adapt t = t := by
    cases v with
    | null => exact absurd rfl hv
    | scalar s => rfl
    | tuple items => rfl
  rw [hadapt] at htext
  obtain ⟨template, hformat, hcount, hrender⟩ := Dialect.initializer_literal_eq_ok_iff.mp htext
  obtain ⟨texts, htexts⟩ := leaves_written l.style_regular hk hv hformat hcount hrender
  exact fun s hs => exists_of_collect htexts hs

/-- Where a char is declared, every leaf of an emitted literal is one. Where another primitive is
declared, every leaf is legal for its own tag, unless it is tagged as text. So leaves tagged as
declared are legal for the declared kind, and the integers of an untagged value are tagged so. -/
theorem emit_checks_tags (l : Language) (classes : ClassRegistry) (name : String)
    (type : TypeExpr) {v : Tagged} (hv : v ≠ .null) {d : Declaration}
    (hd : l.dialect.emit ⟨name, type, .literal v⟩ classes = .ok d) {t : ResolvedType}
    (ht : type.resolve classes = .ok t) {k : ScalarKind} (hk : t.PrimitiveOf k) :
    (k = .char → ∀ s ∈ v.flatten, ScalarKind.char.Accepts s.value) ∧
    (k ≠ .char → ∀ s ∈ v.flatten, s.kind ≠ .char →
      s.kind.Accepts s.value ∨ l.TakesAsLeast s) ∧
    (∀ s ∈ v.flatten, s.kind = k → k.Accepts s.value ∨ l.TakesAsLeast s) ∧
    ∀ raw, Constant.ofDatum name type raw = .ok ⟨name, type, .literal v⟩ →
      k.isIntegral = true → ∀ n, raw.HoldsInteger n t → k.inRange n = true := by
  have hwritten := leaves_of_emit hv hd ht hk
  obtain ⟨b, -, hprimitive, -⟩ := TypeExpr.builtin_of_resolve ht hk
  have hisPrimitive := Builtin.isPrimitive_of_primitive hprimitive
  have hchar (hk : k = .char) : ∀ s ∈ v.flatten, ScalarKind.char.Accepts s.value := by
    intro s hs
    obtain ⟨text, htext⟩ := hwritten s hs
    rw [hk] at htext
    exact l.accepts_of_write_char htext
  have htag (hne : k ≠ .char) : ∀ s ∈ v.flatten, s.kind ≠ .char →
      s.kind.Accepts s.value ∨ l.TakesAsLeast s := by
    intro s hs hkind
    obtain ⟨text, htext⟩ := hwritten s hs
    exact l.accepts_of_write hisPrimitive hne htext hkind
  have hdeclared : ∀ s ∈ v.flatten, s.kind = k → k.Accepts s.value ∨ l.TakesAsLeast s := by
    intro s hs hkind
    by_cases hc : k = .char
    · rw [hc]
      exact .inl (hchar hc s hs)
    · rw [← hkind] at hc ⊢
      exact htag (hkind ▸ hc) s hs hc
  refine ⟨hchar, htag, hdeclared, fun raw hraw hintegral n hn => ?_⟩
  obtain ⟨w, hw, hraw⟩ := bind_eq_ok_iff.mp hraw
  have hw : Tagged.ofDatum (some type) raw = .ok v := by
    cases hraw
    exact hw
  have hmem := Tagged.mem_flatten_of_holdsInteger ht hk hintegral hn hw
  rcases hdeclared _ hmem rfl with haccepts | hleast
  · exact k.inRange_of_accepts hintegral haccepts
  · exact inRange_of_takesAsLeast hleast

theorem emit_checks_tags_bytes :
    kotlin.dialect.emit ⟨"X", ⟨"byte", true, false, []⟩,
        .literal (.tuple [.scalar ⟨.byte, .int 1⟩, .scalar ⟨.byte, .int (-128)⟩])⟩ .empty =
      .ok ⟨"X", .primitiveArray .byte false, "byteArrayOf(1, -128)", false⟩ ∧
    TypeExpr.resolve .empty ⟨"byte", true, false, []⟩ = .ok (.primitiveArray .byte false) ∧
    Constant.ofDatum "X" ⟨"byte", true, false, []⟩ (.list [.int 1, .int (-128)]) =
      .ok ⟨"X", ⟨"byte", true, false, []⟩,
        .literal (.tuple [.scalar ⟨.byte, .int 1⟩, .scalar ⟨.byte, .int (-128)⟩])⟩ ∧
    (∀ s ∈ (Tagged.tuple [.scalar ⟨.byte, .int 1⟩, .scalar ⟨.byte, .int (-128)⟩]).flatten,
      s.kind = .byte → ScalarKind.byte.Accepts s.value ∨ kotlin.TakesAsLeast s) ∧
    ScalarKind.byte.inRange (-128) = true := by
  have hemit : kotlin.dialect.emit ⟨"X", ⟨"byte", true, false, []⟩,
        .literal (.tuple [.scalar ⟨.byte, .int 1⟩, .scalar ⟨.byte, .int (-128)⟩])⟩ .empty =
      .ok ⟨"X", .primitiveArray .byte false, "byteArrayOf(1, -128)", false⟩ := rfl
  obtain ⟨-, -, hdeclared, hraw⟩ :=
    emit_checks_tags kotlin .empty "X" ⟨"byte", true, false, []⟩ (by simp) hemit rfl (.array false)
  have hholds : (Datum.list [.int 1, .int (-128)]).HoldsInteger (-128)
      (.primitiveArray .byte false) := .element .byte false rfl (by simp)
  exact ⟨hemit, rfl, rfl, hdeclared, hraw _ rfl rfl _ hholds⟩

/-- A tag that is not the declared one decides by itself, and a text stands as it is. -/
theorem emit_of_other_tags :
    (¬ ScalarKind.byte.Accepts (.int 300) ∧
      kotlin.dialect.emit ⟨"X", ⟨"byte", false, false, []⟩,
          .literal (.scalar ⟨.int, .int 300⟩)⟩ .empty =
        .ok ⟨"X", .primitive .byte false, "300", true⟩ ∧
      java.dialect.emit ⟨"X", ⟨"byte", false, false, []⟩,
          .literal (.scalar ⟨.int, .int 300⟩)⟩ .empty =
        .ok ⟨"X", .primitive .byte false, "(byte) 300", true⟩) ∧
    ¬ ScalarKind.int.Accepts (.text "hello") ∧
    ∃ c, Constant.ofDatum "X" ⟨"int", false, false, []⟩ (.text "hello") = .ok c ∧
      kotlin.dialect.emit c .empty = .ok ⟨"X", .primitive .int false, "hello", true⟩ ∧
      java.dialect.emit c .empty = .ok ⟨"X", .primitive .int false, "hello", true⟩ := by
  refine ⟨⟨?_, rfl, rfl⟩, ?_, _, rfl, rfl, rfl⟩
  · rintro ⟨n, hn, hrange⟩
    obtain rfl := Datum.int.inj hn
    cases hrange
  · rintro ⟨n, hn, -⟩
    cases hn

end Language

end BuildConstants
