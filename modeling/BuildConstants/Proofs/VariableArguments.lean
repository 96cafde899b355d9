import BuildConstants.Proofs.DeclaredKinds
import BuildConstants.Proofs.NumberCharacters

/-!
# Lists as variable arguments

Java's lists take their elements as variable arguments. A call with a single argument that is null
or creates an array of references passes it on as all of the arguments, so that the array's
elements become those of the list. All other calls make a list of their arguments.
-/

namespace BuildConstants

open Literal Outcome ResolvedType

namespace ResolvedType

def isCollection : ResolvedType → Bool
  | list .. | set .. => true
  | _ => false

theorem isSequence_of_part {t e : ResolvedType} (h : t.part? = some e) : t.isSequence = true := by
  rcases part?_eq_some h with ⟨k, n, rfl, -⟩ | ⟨ht, -⟩
  · rfl
  · exact isSequence_of_isGeneric ht

theorem Kinds.misplaced {t : ResolvedType} {v : Tagged} (h : t.Kinds v) :
    Literal.misplaced t v = [] := by
  induction h with
  | null t | scalar h => rw [Literal.misplaced]
  | tuple he h ih =>
    rw [misplaced_of_isSequence (isSequence_of_part he), place_of_part he]
    exact List.flatMap_eq_nil_iff.mpr ih

end ResolvedType

namespace Literal

theorem stands_tuple_iff {t u : ResolvedType} {items : List Tagged} {w : Tagged} :
    Stands t (.tuple items) u w ↔ (u = t ∧ w = .tuple items) ∨
      t.isSequence = true ∧ ∃ v ∈ items, Stands t.place v u w := by
  constructor
  · rintro (_ | ⟨ht, hv, h⟩)
    · exact .inl ⟨rfl, rfl⟩
    · exact .inr ⟨ht, _, hv, h⟩
  · rintro (⟨rfl, rfl⟩ | ⟨ht, v, hv, h⟩)
    · exact .here _ _
    · exact .element ht hv h

theorem Stands.flatten_subset {t u : ResolvedType} {v w : Tagged} (h : Stands t v u w) :
    w.flatten ⊆ v.flatten := by
  induction h with
  | here t v => exact List.Subset.refl _
  | element ht hv h ih =>
    intro s hs
    rw [Tagged.flatten, Tagged.flattenItems_eq]
    exact List.mem_flatMap.mpr ⟨_, hv, ih hs⟩

theorem Fits.element {t : ResolvedType} {items inner : List Tagged} (h : Fits t (.tuple items))
    (hinner : .tuple inner ∈ items) : t.isGeneric = true ∧ Fits t.elementOrList (.tuple inner) := by
  cases h with
  | primitiveArray k n h =>
    obtain ⟨s, hs⟩ := h _ hinner
    cases hs
  | generic ht h => exact ⟨ht, h _ hinner⟩

theorem collect_map_congr {α β γ : Type} {f : β → Except Fault γ} {g : α → Except Fault γ}
    {h : α → β} {as : List α} (hfg : ∀ a ∈ as, f (h a) = g a) :
    collect f (as.map h) = collect g as := by
  induction as with
  | nil => rfl
  | cons a rest ih =>
    rw [List.map_cons, collect, collect, hfg a List.mem_cons_self,
      ih fun b hb => hfg b (List.mem_cons_of_mem a hb)]

theorem printItems_eq_collect (style : Style) (form : ScalarKind → Form) (t : ResolvedType)
    (items : List Tagged) :
    printItems style form t items = collect (printElement style form t) items := by
  induction items with
  | nil => rfl
  | cons v rest ih => rw [printItems_cons, collect, ih]

end Literal

namespace Java

/-- What initializers consist of. The arrays are of primitives or of references to values of a
type. -/
inductive Expression
  | null
  | literal (form : Form) (s : Scalar)
  | primitives (k : ScalarKind) (elements : List Expression)
  | references (element : Option ResolvedType) (elements : List Expression)
  | asList (arguments : List Expression)
  | hashSet (elements : Expression)

namespace Expression

mutual

def text : Expression → Except Fault String
  | null => .ok "null"
  | literal form s => form.write style s
  | primitives k elements => do
    let texts ← allTexts elements
    return (style.primitiveArray k).around ", " texts
  | references e elements => do
    let texts ← allTexts elements
    let brackets ← genericArray e
    return brackets.around ", " texts
  | asList arguments => do
    let texts ← allTexts arguments
    return "java.util.Arrays.asList(" ++ String.intercalate ", " texts ++ ")"
  | hashSet elements => do
    let text ← elements.text
    return "new java.util.LinkedHashSet<>(" ++ text ++ ")"

def allTexts : List Expression → Except Fault (List String)
  | [] => .ok []
  | e :: rest => do
    let text ← e.text
    let texts ← allTexts rest
    return text :: texts

end

@[simp] theorem allTexts_eq (es : List Expression) : allTexts es = collect text es := by
  induction es with
  | nil => rfl
  | cons e rest ih => rw [allTexts, collect, ih]

def parts : Expression → List Expression
  | null | literal .. => []
  | primitives _ elements | references _ elements => elements
  | asList arguments => arguments
  | hashSet elements => [elements]

/-- A call with these arguments makes a list somewhere in the expression. -/
inductive Calls : Expression → List Expression → Prop
  | here (arguments : List Expression) : Calls (asList arguments) arguments
  | inside {outer e : Expression} {arguments : List Expression} (he : e ∈ outer.parts)
      (h : Calls e arguments) : Calls outer arguments

theorem calls_iff {outer : Expression} {arguments : List Expression} :
    outer.Calls arguments ↔ outer = asList arguments ∨ ∃ e ∈ outer.parts, e.Calls arguments := by
  constructor
  · rintro (_ | ⟨he, h⟩)
    · exact .inl rfl
    · exact .inr ⟨_, he, h⟩
  · rintro (rfl | ⟨e, he, h⟩)
    · exact .here arguments
    · exact .inside he h

/-- The bare null, also if a scalar is spelled so. -/
def isNull : Expression → Bool
  | null => true
  | literal form s => match form.write style s with
    | .ok text => text == "null"
    | .error _ => false
  | _ => false

/-- The elements of the list that a call makes. A null in place of all arguments makes no list. -/
def received : List Expression → Option (List Expression)
  | [references _ elements] => some elements
  | [e] => if e.isNull then none else some [e]
  | arguments => some arguments

end Expression

def sequence (t : ResolvedType) (elements : List Expression) : Expression :=
  match t with
  | .primitiveArray k _ => .primitives k elements
  | .array e _ => .references e elements
  | .set .. => .hashSet (.asList elements)
  | _ => .asList elements

mutual

/-- The expression of a value at a type. A scalar is a literal everywhere. -/
def expression (t : ResolvedType) : Tagged → Expression
  | .null => .null
  | .scalar s => .literal (placeForm form t s) s
  | .tuple items => sequence t (expressions t items)

def expressions (t : ResolvedType) : List Tagged → List Expression
  | [] => []
  | item :: rest =>
    (match item with
      | .null => .null
      | .scalar s => .literal (placeForm form t s) s
      | .tuple items => expression t.elementOrList (.tuple items)) :: expressions t rest

end

def element (t : ResolvedType) : Tagged → Expression
  | .null => .null
  | .scalar s => .literal (placeForm form t s) s
  | .tuple items => expression t.elementOrList (.tuple items)

@[simp] theorem expressions_eq (t : ResolvedType) (items : List Tagged) :
    expressions t items = items.map (element t) := by
  induction items with
  | nil => rfl
  | cons item rest ih => cases item <;> simp [expressions, element, ih]

theorem expression_tuple (t : ResolvedType) (items : List Tagged) :
    expression t (.tuple items) = sequence t (items.map (element t)) := by
  rw [expression, expressions_eq]

theorem text_sequence {t : ResolvedType} (ht : t.isSequence = true) (elements : List Expression) :
    (sequence t elements).text =
      collect Expression.text elements >>= fun texts => enclosed style texts t := by
  cases t with
  | primitive k n | string n | named q as c n => cases ht
  | primitiveArray k n | array e n | list e n =>
    simp only [sequence, Expression.text, Expression.allTexts_eq]
    rfl
  | set e n =>
    have hopening : "new java.util.LinkedHashSet<>(" ++ "java.util.Arrays.asList(" =
        style.set.opening := by decide
    have henclosed (texts : List String) : enclosed style texts (.set e n) =
        .ok ("new java.util.LinkedHashSet<>(" ++
          ("java.util.Arrays.asList(" ++ String.intercalate ", " texts ++ ")") ++ ")") := by
      rw [enclosed, Template.Brackets.around, ← hopening]
      simp [String.append_assoc]
      rfl
    simp [sequence, Expression.text, henclosed]

theorem text_expression {v : Tagged} : ∀ {t : ResolvedType} {items : List Tagged},
    v = .tuple items → Fits t v → (expression t v).text = print style form t v := by
  induction v using Tagged.induction with
  | null | scalar s =>
    intro t items h
    cases h
  | tuple items ih =>
    rintro t _ ⟨⟩ hv
    have helement : ∀ v ∈ items, (element t v).text = printElement style form t v := by
      intro v hv'
      cases v with
      | null | scalar s => rfl
      | tuple inner => exact ih _ hv' rfl (hv.element hv').2
    rw [expression_tuple, text_sequence hv.isSequence, collect_map_congr helement, print,
      printItems_eq_collect]

open Expression in
theorem calls_sequence {t : ResolvedType} (ht : t.isSequence = true) {elements : List Expression}
    {arguments : List Expression} : (sequence t elements).Calls arguments ↔
      t.isCollection = true ∧ arguments = elements ∨ ∃ e ∈ elements, e.Calls arguments := by
  cases t with
  | primitive k n | string n | named q as c n => cases ht
  | primitiveArray k n | array e n =>
    rw [calls_iff]
    simp [sequence, parts, isCollection]
  | list e n =>
    rw [calls_iff]
    simp [sequence, parts, isCollection, eq_comm]
  | set e n =>
    rw [calls_iff]
    simp [sequence, parts, isCollection, @calls_iff (asList _), eq_comm]

/-- Every call makes the list of a sequence at its place, and all of them do. -/
theorem calls_expression {v : Tagged} : ∀ {t : ResolvedType} {items : List Tagged},
    v = .tuple items → Fits t v → ∀ arguments, (expression t v).Calls arguments ↔
      ∃ u inner, Stands t v u (.tuple inner) ∧ u.isCollection = true ∧
        arguments = inner.map (element u) := by
  induction v using Tagged.induction with
  | null | scalar s =>
    intro t items h
    cases h
  | tuple items ih =>
    rintro t _ ⟨⟩ hv arguments
    have helement : ∀ v ∈ items, (element t v).Calls arguments ↔
        ∃ u inner, Stands t.place v u (.tuple inner) ∧ u.isCollection = true ∧
          arguments = inner.map (element u) := by
      intro v hv'
      cases v with
      | null | scalar s =>
        constructor
        · rintro (_ | ⟨he, -⟩)
          cases he
        · rintro ⟨u, inner, h, -⟩
          cases h
      | tuple inner =>
        obtain ⟨ht, hinner⟩ := hv.element hv'
        rw [place_of_isGeneric ht]
        exact ih _ hv' rfl hinner arguments
    rw [expression_tuple, calls_sequence hv.isSequence]
    constructor
    · rintro (⟨ht, rfl⟩ | ⟨e, he, h⟩)
      · exact ⟨t, items, .here _ _, ht, rfl⟩
      · obtain ⟨v, hv', rfl⟩ := List.mem_map.mp he
        obtain ⟨u, inner, hstands, hu⟩ := (helement v hv').mp h
        exact ⟨u, inner, .element hv.isSequence hv' hstands, hu⟩
    · rintro ⟨u, inner, hstands, hu, rfl⟩
      rcases stands_tuple_iff.mp hstands with ⟨rfl, heq⟩ | ⟨-, v, hv', h⟩
      · obtain rfl := Tagged.tuple.inj heq
        exact .inl ⟨hu, rfl⟩
      · exact .inr ⟨_, List.mem_map_of_mem hv', (helement v hv').mpr ⟨u, inner, h, hu, rfl⟩⟩

theorem isNull_literal_iff {f : Form} {s : Scalar} :
    (Expression.literal f s).isNull = true ↔ f.write style s = .ok "null" := by
  rw [Expression.isNull]
  split
  · rename_i text htext
    simp [htext]
  · rename_i fault hfault
    simp [hfault]

theorem n_not_mem_plainBoolean {d : Datum} {text : String} (h : plainBoolean d = .ok text) :
    'n' ∉ text.toList := by
  cases d with
  | bool b =>
    obtain rfl := Except.ok.inj h
    cases b <;> decide
  | _ => cases h

theorem isNull_literal {s : Scalar} (hs : s.kind ≠ .other) :
    (Expression.literal (form s.kind) s).isNull = false := by
  rw [Bool.eq_false_iff, Ne, isNull_literal_iff]
  intro h
  obtain ⟨text, hspell, h⟩ := bind_eq_ok_iff.mp h
  have hnull : (form s.kind).before ++ text ++ (form s.kind).after = "null" := Except.ok.inj h
  have hletter : 'n' ∈ text.toList := by
    have hbefore : 'n' ∉ (form s.kind).before.toList := by cases s.kind <;> decide
    have hafter : 'n' ∉ (form s.kind).after.toList := by cases s.kind <;> decide
    have hmem : 'n' ∈ ((form s.kind).before ++ text ++ (form s.kind).after).toList := by
      rw [hnull]
      decide
    simpa [hbefore, hafter] using hmem
  have hquoted {q : Char} (hq : IsQuote q) (cs : List Char) :
      "" ++ enclose q false cs ++ "" ≠ "null" := by
    intro heq
    have hfresh : (enclose q false cs).toList ≠ "null".toList ++ [] :=
      (fresh_enclose hq false cs).ne_null
    rw [String.empty_append, String.append_empty] at heq
    exact hfresh (by rw [heq, List.append_nil])
  -- Words have no such letter, and quoted texts begin with their quote.
  obtain ⟨k, d⟩ := s
  cases k with
  | other => exact hs rfl
  | boolean => exact n_not_mem_plainBoolean hspell hletter
  | byte | short | int | long =>
    exact absurd (inNumber_of_plainInteger hspell hletter) (by decide)
  | float | double => exact absurd (inNumber_of_plainFloating hspell hletter) (by decide)
  | string =>
    obtain rfl := Except.ok.inj hspell
    exact hquoted (.inl rfl) _ hnull
  | char =>
    obtain ⟨c, -, hspell⟩ := bind_eq_ok_iff.mp hspell
    obtain rfl := Except.ok.inj hspell
    exact hquoted (.inr rfl) _ hnull

/-- A call takes its only argument for the whole array of arguments. -/
def takesWhole (t : ResolvedType) : List Tagged → Bool
  | [.null] => true
  | [.tuple _] => match t.elementOrList with
    | .array .. => true
    | _ => false
  | _ => false

theorem references_ne (e : Option ResolvedType) (elements : List Expression) :
    elements ≠ [.references e elements] := by
  intro h
  have hsize := congrArg sizeOf h
  simp at hsize
  omega

theorem received_sequence {t : ResolvedType} {elements : List Expression} :
    Expression.received [sequence t elements] = some [sequence t elements] ↔
      ∀ e n, t ≠ .array e n := by
  constructor
  · rintro h e n rfl
    exact references_ne e elements (Option.some.inj h)
  · intro h
    cases t with
    | array e n => exact absurd rfl (h e n)
    | _ => rfl

theorem received_elements {t : ResolvedType} (ht : t.isCollection = true) {items : List Tagged}
    (hk : ∀ s ∈ (Tagged.tuple items).flatten, s.kind ≠ .other) :
    Expression.received (items.map (element t)) = some (items.map (element t)) ↔
      takesWhole t items = false := by
  match items with
  | [] => simp [Expression.received, takesWhole]
  | [.null] => simp [Expression.received, takesWhole, element, Expression.isNull]
  | [.scalar s] =>
    have hform : placeForm form t s = form s.kind := by
      cases t <;> first | rfl | cases ht
    have hnull := isNull_literal (hk s (by simp [Tagged.flatten]))
    simp [Expression.received, takesWhole, element, hform, hnull]
  | [.tuple inner] =>
    rw [List.map_singleton, element, expression_tuple, received_sequence, takesWhole]
    cases t.elementOrList <;> simp
  | v :: w :: rest => simp [Expression.received, takesWhole]

/-- Values of the shape of a standard type fit it, with known kinds and without classes. -/
theorem conforming_premises {classes : ClassRegistry} {name : String} {type : TypeExpr}
    (ht : type.Standard) {raw : Datum} (hraw : type.Shapes raw) {items : List Tagged}
    (hv : Tagged.ofDatum (some type) raw = .ok (.tuple items)) {d : Declaration}
    (hd : dialect.emit ⟨name, type, .literal (.tuple items)⟩ classes = .ok d) :
    Fits d.type (.tuple items) ∧ (∀ q ∈ d.type.classNames, PercentFree q) ∧
      ∀ s ∈ (Tagged.tuple items).flatten, s.kind ≠ .other := by
  obtain ⟨r, hr, hkinds, hknown⟩ := hraw.kinds ht classes hv
  obtain ⟨n, t, text, -, hresolve, htext, rfl⟩ := Dialect.emit_eq_ok_iff.mp hd
  obtain rfl := Except.ok.inj (hr.symm.trans hresolve)
  obtain ⟨template, hformat, -, -⟩ := Dialect.initializer_literal_eq_ok_iff.mp htext
  obtain ⟨base, hbase⟩ := ht.resolves classes
  obtain ⟨full, hfull, hclasses⟩ := hbase.result
  obtain rfl := Except.ok.inj (hr.symm.trans hfull)
  refine ⟨fits_of_format hformat hkinds.misplaced, fun q hq => ?_, hknown⟩
  have hq : q ∈ r.classNames := hq
  rw [hclasses] at hq
  cases hq

/-- The initializer of a sequence that fits its type is a Java expression with one call for every
list and set in the value. Each of these lists has exactly the elements that the value has there,
unless its only element is null or an array of references: then Java takes the element for all of
the elements. -/
theorem asList_elements {classes : ClassRegistry} {name : String} {type : TypeExpr}
    {items : List Tagged} {d : Declaration}
    (hd : dialect.emit ⟨name, type, .literal (.tuple items)⟩ classes = .ok d)
    (hv : Fits d.type (.tuple items)) (hq : ∀ q ∈ d.type.classNames, PercentFree q)
    (hk : ∀ s ∈ (Tagged.tuple items).flatten, s.kind ≠ .other) :
    (expression d.type (.tuple items)).text = .ok d.initializer ∧
    (∀ arguments, (expression d.type (.tuple items)).Calls arguments ↔
      ∃ u inner, Stands d.type (.tuple items) u (.tuple inner) ∧ u.isCollection = true ∧
        arguments = inner.map (element u)) ∧
    ∀ u inner, Stands d.type (.tuple items) u (.tuple inner) → u.isCollection = true →
      (Expression.received (inner.map (element u)) = some (inner.map (element u)) ↔
        takesWhole u inner = false) := by
  refine ⟨?_, calls_expression rfl hv, fun u inner hstands hu =>
    received_elements hu fun s hs => hk s (hstands.flatten_subset hs)⟩
  obtain ⟨n, t, text, -, ht, htext, rfl⟩ := Dialect.emit_eq_ok_iff.mp hd
  have hallows : Language.java.Allows t := Language.allows_of_resolve ht fun _ => hq
  have hprint := Language.initializer_eq_print hv hallows name
  rw [text_expression rfl hv]
  exact hprint.symm.trans htext

/-- Two arrays are two elements, each of them as it is. -/
theorem asList_elements_nested :
    dialect.emit ⟨"X", ⟨"List", false, false, [⟨"String", true, false, []⟩]⟩,
        .literal (.tuple [.tuple [.scalar ⟨.string, .text "a"⟩], .tuple []])⟩ .empty =
      .ok ⟨"X", .list (some (.array (some (.string false)) false)) false,
        "java.util.Arrays.asList(new String[] \x7b\"a\"\x7d, new String[] \x7b\x7d)", false⟩ ∧
    (expression (.list (some (.array (some (.string false)) false)) false)
        (.tuple [.tuple [.scalar ⟨.string, .text "a"⟩], .tuple []])).Calls
      [.references (some (.string false)) [.literal (form .string) ⟨.string, .text "a"⟩],
        .references (some (.string false)) []] ∧
    Expression.received
        [.references (some (.string false)) [.literal (form .string) ⟨.string, .text "a"⟩],
          .references (some (.string false)) []] =
      some [.references (some (.string false)) [.literal (form .string) ⟨.string, .text "a"⟩],
        .references (some (.string false)) []] := by
  have hemit : dialect.emit ⟨"X", ⟨"List", false, false, [⟨"String", true, false, []⟩]⟩,
        .literal (.tuple [.tuple [.scalar ⟨.string, .text "a"⟩], .tuple []])⟩ .empty =
      .ok ⟨"X", .list (some (.array (some (.string false)) false)) false,
        "java.util.Arrays.asList(new String[] \x7b\"a\"\x7d, new String[] \x7b\x7d)", false⟩ :=
    rfl
  have hlist : TypeExpr.Names ⟨"List", false, false, [⟨"String", true, false, []⟩]⟩ .list := by
    decide
  have hstring (array : Bool) : TypeExpr.Names ⟨"String", array, false, []⟩ .string := by
    cases array <;> decide
  have hstandard : TypeExpr.Standard ⟨"List", false, false, [⟨"String", true, false, []⟩]⟩ :=
    .collection hlist (.inl rfl) rfl (.scalar (hstring true) rfl rfl)
  have harray : ∀ items : List Datum, (∀ d ∈ items, d = .text "a") →
      TypeExpr.Shapes ⟨"String", true, false, []⟩ (.list items) := by
    intro items h
    apply TypeExpr.Shapes.sequence rfl rfl
    intro d hd
    rw [h d hd]
    exact .text rfl (hstring false) (.inr rfl) rfl
  have hshape : TypeExpr.Shapes ⟨"List", false, false, [⟨"String", true, false, []⟩]⟩
      (.list [.list [.text "a"], .list []]) := by
    apply TypeExpr.Shapes.sequence rfl rfl
    intro d hd
    simp only [List.mem_cons, List.not_mem_nil, or_false] at hd
    rcases hd with rfl | rfl
    · exact harray _ (by simp)
    · exact harray _ (by simp)
  obtain ⟨hfits, hclasses, hkinds⟩ := conforming_premises hstandard hshape rfl hemit
  obtain ⟨-, hcalls, hreceived⟩ := asList_elements hemit hfits hclasses hkinds
  refine ⟨hemit, ?_, ?_⟩
  · exact (hcalls _).mpr ⟨_, _, .here _ _, rfl, rfl⟩
  · exact (hreceived _ _ (.here _ _) rfl).mpr rfl

/-- A list of one null is none, and a list of one array of texts becomes a list of these texts. -/
theorem asList_takes_whole :
    (dialect.emit ⟨"X", ⟨"List", false, false, [⟨"int", false, true, []⟩]⟩,
        .literal (.tuple [.null])⟩ .empty =
      .ok ⟨"X", .list (some (.primitive .int true)) false, "java.util.Arrays.asList(null)", false⟩ ∧
      (expression (.list (some (.primitive .int true)) false) (.tuple [.null])).text =
        .ok "java.util.Arrays.asList(null)" ∧
      (expression (.list (some (.primitive .int true)) false) (.tuple [.null])).Calls [.null] ∧
      Expression.received [.null] = none) ∧
    dialect.emit ⟨"X", ⟨"List", false, false, [⟨"String", true, false, []⟩]⟩,
        .literal (.tuple [.tuple [.scalar ⟨.string, .text "a"⟩, .scalar ⟨.string, .text "b"⟩]])⟩
        .empty =
      .ok ⟨"X", .list (some (.array (some (.string false)) false)) false,
        "java.util.Arrays.asList(new String[] \x7b\"a\", \"b\"\x7d)", false⟩ ∧
    (expression (.list (some (.array (some (.string false)) false)) false)
        (.tuple [.tuple [.scalar ⟨.string, .text "a"⟩, .scalar ⟨.string, .text "b"⟩]])).Calls
      [.references (some (.string false)) [.literal (form .string) ⟨.string, .text "a"⟩,
        .literal (form .string) ⟨.string, .text "b"⟩]] ∧
    Expression.received
        [.references (some (.string false)) [.literal (form .string) ⟨.string, .text "a"⟩,
          .literal (form .string) ⟨.string, .text "b"⟩]] =
      some [.literal (form .string) ⟨.string, .text "a"⟩,
        .literal (form .string) ⟨.string, .text "b"⟩] :=
  ⟨⟨rfl, rfl, .here _, rfl⟩, rfl, .here _, rfl⟩

end Java

end BuildConstants
