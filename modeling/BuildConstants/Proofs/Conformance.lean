import BuildConstants.Proofs.Resolution
import BuildConstants.Request.Basic

/-!
# Values that conform to their declared types

Tagging and resolution walk the declared type in step: a value that conforms to it gets tags that
the resolved type asks for at every place, and the tagged value keeps all that the value held.
Floating numbers stay outside, since their literals are rounded.
-/

namespace BuildConstants

open Text Outcome

namespace TypeExpr

/-- The type, its array mark put aside, is a built-in one. -/
def Names (t : TypeExpr) (b : Builtin) : Prop :=
  Builtin.ofName? t.name = some b

instance (t : TypeExpr) (b : Builtin) : Decidable (t.Names b) :=
  inferInstanceAs (Decidable (Builtin.ofName? t.name = some b))

/-- Built from scalars, arrays, and lists and sets with an element type; any of them may be
nullable. -/
inductive Standard : TypeExpr → Prop
  | scalar {t : TypeExpr} {b : Builtin} (hb : t.Names b) (hscalar : b.scalarKind?.isSome = true)
      (ha : t.arguments = []) : Standard t
  | collection {t a : TypeExpr} {b : Builtin} (hb : t.Names b) (hc : b = .list ∨ b = .set)
      (ha : t.arguments = [a]) (h : Standard a) : Standard t

/-- Built from scalars other than floating ones, arrays, and lists and sets with an element type;
any of them may be nullable. -/
inductive Lossless : TypeExpr → Prop
  | scalar {t : TypeExpr} {b : Builtin} (hb : t.Names b) (hscalar : b.scalarKind?.isSome = true)
      (hfloat : b ≠ .float ∧ b ≠ .double) (ha : t.arguments = []) : Lossless t
  | collection {t a : TypeExpr} {b : Builtin} (hb : t.Names b) (hc : b = .list ∨ b = .set)
      (ha : t.arguments = [a]) (h : Lossless a) : Lossless t

theorem Lossless.standard {t : TypeExpr} (h : t.Lossless) : t.Standard := by
  induction h with
  | scalar hb hscalar _ ha => exact .scalar hb hscalar ha
  | collection hb hc ha _ ih => exact .collection hb hc ha ih

/-- The type of the elements of an array. -/
def unmarked (t : TypeExpr) : TypeExpr :=
  ⟨t.name, false, t.nullable, t.arguments⟩

/-- A value other than null conforms to a declared type. Null stands for elements of nullable
types only. -/
inductive Conforms : TypeExpr → Datum → Prop
  | boolean {t : TypeExpr} (ht : t.array = false) (hb : t.Names .boolean) (b : Bool) :
      Conforms t (.bool b)
  | integer {t : TypeExpr} {b : Builtin} {k : ScalarKind} (ht : t.array = false) (hb : t.Names b)
      (hk : b.primitive? = some k) {n : Int} (hn : k.inRange n = true) : Conforms t (.int n)
  | char {t : TypeExpr} (ht : t.array = false) (hb : t.Names .char) {c : Char}
      (hc : codePoint c ≤ 0xffff) : Conforms t (.text (String.singleton c))
  | string {t : TypeExpr} (ht : t.array = false) (hb : t.Names .string) (s : String) :
      Conforms t (.text s)
  | array {t : TypeExpr} (ht : t.array = true) {items : List Datum}
      (hnull : Datum.null ∈ items → t.nullable = true)
      (h : ∀ d ∈ items, d ≠ .null → Conforms t.unmarked d) : Conforms t (.list items)
  | collection {t a : TypeExpr} {b : Builtin} (ht : t.array = false) (hb : t.Names b)
      (hc : b = .list ∨ b = .set) (ha : t.arguments = [a]) {items : List Datum}
      (hnull : Datum.null ∈ items → a.nullable = true)
      (h : ∀ d ∈ items, d ≠ .null → Conforms a d) : Conforms t (.list items)

/-- Null is admitted at the top of every type. -/
def Admits (t : TypeExpr) (d : Datum) : Prop :=
  d = .null ∨ t.Conforms d

end TypeExpr

namespace ResolvedType

def scalarKind? : ResolvedType → Option ScalarKind
  | primitive k _ => some k
  | string _ => some .string
  | _ => none

/-- The declared type of the elements; those of a primitive array are plain primitives. -/
def part? : ResolvedType → Option ResolvedType
  | primitiveArray k _ => some (primitive k false)
  | t => t.element?

def arrayOf : ResolvedType → ResolvedType
  | primitive k false => primitiveArray k false
  | t => array (some t) false

@[simp] theorem part?_arrayOf (t : ResolvedType) : t.arrayOf.part? = some t := by
  match t with
  | primitive k true | primitive k false => rfl
  | string _ | primitiveArray .. | array .. | list .. | set .. | named .. => rfl

theorem part?_eq_some {t e : ResolvedType} (h : t.part? = some e) :
    (∃ k n, t = primitiveArray k n ∧ e = primitive k false) ∨
      t.isGeneric = true ∧ t.element? = some e := by
  cases t with
  | primitiveArray k n => exact .inl ⟨k, n, rfl, (Option.some.inj h).symm⟩
  | array a n | list a n | set a n => exact .inr ⟨rfl, h⟩
  | primitive k n | string n | named q as c n => cases h

theorem part?_of_scalarKind {t : ResolvedType} {k : ScalarKind} (h : t.scalarKind? = some k) :
    t.part? = none := by
  cases t <;> first | rfl | cases h

theorem isGeneric_arrayOf {t : ResolvedType} (h : t.nullable = true) :
    t.arrayOf.isGeneric = true := by
  match t, h with
  | primitive k true, _ => rfl
  | string _, _ | primitiveArray .., _ | array .., _ | list .., _ | set .., _ | named .., _ => rfl

theorem classNames_arrayOf (t : ResolvedType) : t.arrayOf.classNames = t.classNames := by
  match t with
  | primitive k true | primitive k false => rfl
  | string _ | primitiveArray .. | array .. | list .. | set .. | named .. => rfl

/-- A built-in type is marked as an array last. -/
theorem mark_ofBuiltin (b : Builtin) (array nullable : Bool) :
    (ofBuiltin b array nullable).mark array nullable =
      if array then ((ofBuiltin b false nullable).mark false nullable).arrayOf
      else (ofBuiltin b false nullable).mark false nullable := by
  cases array with
  | false => rfl
  | true => cases nullable <;> cases b <;> rfl

theorem nullable_mark_ofBuiltin (b : Builtin) (nullable : Bool) :
    ((ofBuiltin b false nullable).mark false nullable).nullable = nullable := by
  cases nullable <;> cases b <;> rfl

theorem classNames_mark_ofBuiltin (b : Builtin) (nullable : Bool) :
    ((ofBuiltin b false nullable).mark false nullable).classNames = [] := by
  cases nullable <;> cases b <;> rfl

end ResolvedType

/-- A datum that the kind can write without loss. -/
inductive Legal : ScalarKind → Datum → Prop
  | boolean (b : Bool) : Legal .boolean (.bool b)
  | integer {k : ScalarKind} {n : Int} (h : k.inRange n = true) : Legal k (.int n)
  | char {c : Char} (h : codePoint c ≤ 0xffff) : Legal .char (.text (String.singleton c))
  | string (s : String) : Legal .string (.text s)

/-- A tagged value other than null whose tags are those that its type declares. -/
inductive WellTagged : ResolvedType → Tagged → Prop
  | scalar {t : ResolvedType} {k : ScalarKind} (hk : t.scalarKind? = some k) {d : Datum}
      (hd : Legal k d) : WellTagged t (.scalar ⟨k, d⟩)
  | sequence {t e : ResolvedType} (he : t.part? = some e) {items : List Tagged}
      (hnull : Tagged.null ∈ items → t.isGeneric = true)
      (h : ∀ v ∈ items, v ≠ .null → WellTagged e v) : WellTagged t (.tuple items)

theorem WellTagged.scalarKind {t : ResolvedType} {s : Scalar} (h : WellTagged t (.scalar s)) :
    ∃ k, t.scalarKind? = some k ∧ s.kind = k := by
  cases h with
  | scalar hk hd => exact ⟨_, hk, rfl⟩

namespace Tagged

mutual

/-- The value without its tags. -/
def content : Tagged → Datum
  | null => .null
  | scalar s => s.value
  | tuple items => .list (contents items)

def contents : List Tagged → List Datum
  | [] => []
  | v :: rest => v.content :: contents rest

end

@[simp] theorem contents_eq (items : List Tagged) : contents items = items.map content := by
  induction items with
  | nil => rfl
  | cons v rest ih => simp [contents, ih]

end Tagged

namespace TypeExpr

open ResolvedType

variable {classes : ClassRegistry}

theorem ofName_of_names {t : TypeExpr} {b : Builtin} (hb : t.Names b) :
    ofName t.name t.array t.nullable classes = .ok (ofBuiltin b t.array t.nullable) := by
  have hb : Builtin.ofName? t.name = some b := hb
  simp only [ofName, hb]

theorem resolve_of_no_arguments (classes : ClassRegistry) {t : TypeExpr} {b : Builtin}
    (hb : t.Names b) (ha : t.arguments = []) :
    t.resolve classes = .ok ((ofBuiltin b t.array t.nullable).mark t.array t.nullable) := by
  obtain ⟨name, array, nullable, arguments⟩ := t
  obtain rfl : arguments = [] := ha
  rw [resolve_nil, ofName_of_names hb]
  rfl

theorem resolve_of_argument {t a : TypeExpr} {b : Builtin} (hb : t.Names b)
    (ha : t.arguments = [a]) {r : ResolvedType} (hr : a.resolve classes = .ok r) :
    t.resolve classes = ((ofBuiltin b t.array t.nullable).withArguments t.name [r] >>= fun full =>
      .ok (full.mark t.array t.nullable)) := by
  obtain ⟨name, array, nullable, arguments⟩ := t
  obtain rfl : arguments = [a] := ha
  rw [resolve_cons, ofName_of_names hb, hr]
  rfl

theorem Standard.unmarked {t : TypeExpr} (h : t.Standard) : t.unmarked.Standard := by
  cases h with
  | scalar hb hscalar ha => exact .scalar hb hscalar ha
  | collection hb hc ha h => exact .collection hb hc ha h

theorem Lossless.unmarked {t : TypeExpr} (h : t.Lossless) : t.unmarked.Lossless := by
  cases h with
  | scalar hb hscalar hfloat ha => exact .scalar hb hscalar hfloat ha
  | collection hb hc ha h => exact .collection hb hc ha h

theorem resolve_collection {t a : TypeExpr} {b : Builtin} (hb : t.Names b)
    (hc : b = .list ∨ b = .set) (ha : t.arguments = [a]) {r : ResolvedType}
    (hr : a.resolve classes = .ok r) :
    ∃ c, (c = .list (some r) t.nullable ∨ c = .set (some r) t.nullable) ∧
      t.unmarked.resolve classes = .ok c ∧
      t.resolve classes = .ok (if t.array then c.arrayOf else c) := by
  have hunmarked := resolve_of_argument (t := t.unmarked) hb ha hr
  have hmarked := resolve_of_argument (t := t) hb ha hr
  rcases hc with rfl | rfl
  · refine ⟨.list (some r) t.nullable, .inl rfl, hunmarked.trans ?_, hmarked.trans ?_⟩
    · show Except.ok ((list (some r) false).mark false t.nullable) = _
      cases t.nullable <;> rfl
    · show Except.ok ((list (some r) false).mark t.array t.nullable) = _
      cases t.array <;> cases t.nullable <;> rfl
  · refine ⟨.set (some r) t.nullable, .inr rfl, hunmarked.trans ?_, hmarked.trans ?_⟩
    · show Except.ok ((set (some r) false).mark false t.nullable) = _
      cases t.nullable <;> rfl
    · show Except.ok ((set (some r) false).mark t.array t.nullable) = _
      cases t.array <;> cases t.nullable <;> rfl

/-- A type and its unmarked form resolve together. -/
structure Resolves (t : TypeExpr) (classes : ClassRegistry) (r : ResolvedType) : Prop where
  unmarked : t.unmarked.resolve classes = .ok r
  marked : t.resolve classes = .ok (if t.array then r.arrayOf else r)
  classNames : r.classNames = []
  nullable : r.nullable = t.nullable

theorem Resolves.result {t : TypeExpr} {r : ResolvedType} (h : t.Resolves classes r) :
    ∃ full, t.resolve classes = .ok full ∧ full.classNames = [] := by
  refine ⟨_, h.marked, ?_⟩
  split
  · exact (classNames_arrayOf r).trans h.classNames
  · exact h.classNames

theorem resolves_of_no_arguments (classes : ClassRegistry) {t : TypeExpr} {b : Builtin}
    (hb : t.Names b) (ha : t.arguments = []) :
    t.Resolves classes ((ofBuiltin b false t.nullable).mark false t.nullable) where
  unmarked := resolve_of_no_arguments classes (t := t.unmarked) hb ha
  marked := (resolve_of_no_arguments classes hb ha).trans (congrArg _ (mark_ofBuiltin b _ _))
  classNames := classNames_mark_ofBuiltin b t.nullable
  nullable := nullable_mark_ofBuiltin b t.nullable

theorem Resolves.collection {classes : ClassRegistry} {t a : TypeExpr} {b : Builtin}
    (hb : t.Names b) (hc : b = .list ∨ b = .set) (ha : t.arguments = [a]) {e : ResolvedType}
    (he : a.Resolves classes e) : ∃ c, t.Resolves classes c := by
  obtain ⟨r, hr, hclass⟩ := he.result
  obtain ⟨c, hshape, hunmarked, hmarked⟩ := resolve_collection hb hc ha hr
  refine ⟨c, hunmarked, hmarked, ?_, ?_⟩
  · rcases hshape with rfl | rfl <;> exact hclass
  · rcases hshape with rfl | rfl <;> rfl

theorem Standard.resolves {t : TypeExpr} (h : t.Standard) (classes : ClassRegistry) :
    ∃ r, t.Resolves classes r := by
  induction h with
  | scalar hb hscalar ha => exact ⟨_, resolves_of_no_arguments classes hb ha⟩
  | collection hb hc ha h ih =>
    obtain ⟨e, he⟩ := ih
    exact he.collection hb hc ha

theorem Lossless.resolves {t : TypeExpr} (h : t.Lossless) (classes : ClassRegistry) :
    ∃ r, t.Resolves classes r :=
  h.standard.resolves classes

theorem Standard.arguments_nil {t : TypeExpr} (h : t.Standard) {b : Builtin} (hb : t.Names b)
    (hscalar : b.scalarKind?.isSome = true) : t.arguments = [] := by
  cases h with
  | scalar _ _ ha => exact ha
  | collection hb' hc ha h =>
    obtain rfl := Option.some.inj (hb.symm.trans hb')
    rcases hc with rfl | rfl <;> cases hscalar

theorem Standard.resolve_scalar {t : TypeExpr} (h : t.Standard) (classes : ClassRegistry)
    (ht : t.array = false) {b : Builtin} (hb : t.Names b) {k : ScalarKind}
    (hk : b.scalarKind? = some k) :
    ∃ r, t.resolve classes = .ok r ∧ r.scalarKind? = some k := by
  have ha := h.arguments_nil hb (by rw [hk]; rfl)
  refine ⟨_, resolve_of_no_arguments classes hb ha, ?_⟩
  rw [ht]
  cases b <;> cases hk <;> cases t.nullable <;> rfl

theorem scalarKind?_of_names {t : TypeExpr} (ht : t.array = false) {b : Builtin}
    (hb : t.Names b) : t.scalarKind? = b.scalarKind? := by
  have hb : Builtin.ofName? t.name = some b := hb
  simp [scalarKind?, ht, hb]

theorem element?_of_array {t : TypeExpr} (ht : t.array = true) : t.element? = some t.unmarked := by
  simp [element?, ht, TypeExpr.unmarked]

theorem element?_of_argument {t a : TypeExpr} (ht : t.array = false) (ha : t.arguments = [a]) :
    t.element? = some a := by
  simp [element?, ht, ha]

end TypeExpr

theorem ScalarKind.isIntegral_of_inRange {k : ScalarKind} {n : Int} (h : k.inRange n = true) :
    k.isIntegral = true := by
  unfold inRange range? at h
  cases hw : k.width? with
  | none => simp [hw] at h
  | some w => simp [isIntegral, hw]

theorem Scalar.ofInt_of_isIntegral {k : ScalarKind} (hk : k.isIntegral = true) (n : Int) :
    Scalar.ofInt (some k) n = .ok ⟨k, .int n⟩ := by
  unfold Scalar.ofInt
  split
  · rename_i heq
    cases heq
    cases hk
  · rename_i heq
    cases heq
    rw [if_pos hk]
  · rename_i heq
    cases heq

theorem Scalar.ofInt_of_inRange {k : ScalarKind} {n : Int} (h : k.inRange n = true) :
    Scalar.ofInt (some k) n = .ok ⟨k, .int n⟩ :=
  Scalar.ofInt_of_isIntegral (k.isIntegral_of_inRange h) n

namespace Tagged

theorem ofItems_cons (declared : Option TypeExpr) (d : Datum) (rest : List Datum) :
    ofItems declared (d :: rest) = (ofDatum declared d >>= fun v =>
      ofItems declared rest >>= fun vs => .ok (v :: vs)) := rfl

theorem ofDatum_list (declared : Option TypeExpr) (items : List Datum) :
    ofDatum declared (.list items) =
      (ofItems (declared.bind (·.element?)) items >>= fun vs => .ok (.tuple vs)) := rfl

theorem ofDatum_int (declared : Option TypeExpr) (n : Int) :
    ofDatum declared (.int n) =
      (Scalar.ofInt (declared.bind (·.scalarKind?)) n >>= fun s => .ok (.scalar s)) := rfl

theorem ofDatum_text (declared : Option TypeExpr) (s : String) :
    ofDatum declared (.text s) =
      .ok (.scalar (Scalar.ofText (declared.bind (·.scalarKind?)) (.text s))) := rfl

theorem ofItems_of_forall {declared : Option TypeExpr} {P : Tagged → Prop} {items : List Datum}
    (h : ∀ d ∈ items, ∃ v, ofDatum declared d = .ok v ∧ P v ∧ v.content = d) :
    ∃ vs, ofItems declared items = .ok vs ∧ (∀ v ∈ vs, P v) ∧ vs.map content = items := by
  induction items with
  | nil => exact ⟨[], rfl, by simp, rfl⟩
  | cons d rest ih =>
    obtain ⟨v, hv, hp, hcontent⟩ := h d List.mem_cons_self
    obtain ⟨vs, hvs, hps, hcontents⟩ := ih fun d' hd' => h d' (List.mem_cons_of_mem d hd')
    refine ⟨v :: vs, by simp [ofItems_cons, hv, hvs], ?_, by simp [hcontent, hcontents]⟩
    intro w hw
    rcases List.mem_cons.mp hw with rfl | hw
    · exact hp
    · exact hps w hw

end Tagged

namespace TypeExpr

open Tagged ResolvedType

theorem tagged_list {t e : TypeExpr} (he : t.element? = some e) {r full : ResolvedType}
    (hpart : full.part? = some r) {items : List Datum}
    (hnull : Datum.null ∈ items → full.isGeneric = true)
    (h : ∀ d ∈ items, d ≠ .null →
      ∃ v, ofDatum (some e) d = .ok v ∧ WellTagged r v ∧ v.content = d) :
    ∃ v, ofDatum (some t) (.list items) = .ok v ∧ WellTagged full v ∧
      v.content = .list items := by
  have hall : ∀ d ∈ items, ∃ v, ofDatum (some e) d = .ok v ∧
      (v ≠ .null → WellTagged r v) ∧ v.content = d := by
    intro d hd
    by_cases hdn : d = .null
    · subst hdn
      exact ⟨.null, rfl, fun hne => absurd rfl hne, rfl⟩
    · obtain ⟨v, hv, hw, hcontent⟩ := h d hd hdn
      exact ⟨v, hv, fun _ => hw, hcontent⟩
  obtain ⟨vs, hvs, hw, hcontents⟩ := ofItems_of_forall hall
  refine ⟨.tuple vs, by simp [ofDatum_list, he, hvs], .sequence hpart ?_ hw, ?_⟩
  · intro hm
    apply hnull
    rw [← hcontents]
    exact List.mem_map.mpr ⟨.null, hm, rfl⟩
  · simp [content, hcontents]

/-- A conforming value is tagged as its resolved type declares, and no part of it is lost. -/
theorem Conforms.tagged {t : TypeExpr} {d : Datum} (h : t.Conforms d) (hl : t.Lossless)
    (classes : ClassRegistry) :
    ∃ r v, t.resolve classes = .ok r ∧ ofDatum (some t) d = .ok v ∧ WellTagged r v ∧
      v.content = d := by
  induction h with
  | boolean ht hb b =>
    obtain ⟨r, hr, hk⟩ := hl.standard.resolve_scalar classes ht hb (k := .boolean) rfl
    exact ⟨r, _, hr, rfl, .scalar hk (.boolean b), rfl⟩
  | @integer t b k ht hb hk n hn =>
    have hk' : b.scalarKind? = some k := by
      cases b <;> first | exact hk | cases hk
    obtain ⟨r, hr, hkind⟩ := hl.standard.resolve_scalar classes ht hb hk'
    have hhint : t.scalarKind? = some k := (scalarKind?_of_names ht hb).trans hk'
    refine ⟨r, .scalar ⟨k, .int n⟩, hr, ?_, .scalar hkind (.integer hn), rfl⟩
    simp [ofDatum_int, hhint, Scalar.ofInt_of_inRange hn]
  | @char t ht hb c hc =>
    obtain ⟨r, hr, hk⟩ := hl.standard.resolve_scalar classes ht hb (k := .char) rfl
    have hhint : t.scalarKind? = some .char := scalarKind?_of_names ht hb
    refine ⟨r, .scalar ⟨.char, .text (String.singleton c)⟩, hr, ?_, .scalar hk (.char hc), rfl⟩
    simp [ofDatum_text, hhint, Scalar.ofText]
  | @string t ht hb s =>
    obtain ⟨r, hr, hk⟩ := hl.standard.resolve_scalar classes ht hb (k := .string) rfl
    have hhint : t.scalarKind? = some .string := scalarKind?_of_names ht hb
    refine ⟨r, .scalar ⟨.string, .text s⟩, hr, ?_, .scalar hk (.string s), rfl⟩
    simp [ofDatum_text, hhint, Scalar.ofText]
  | @array t ht items hnull h ih =>
    -- An array resolves with the type of its elements, which gives the elements their tags.
    obtain ⟨r, hr⟩ := hl.resolves classes
    have hfull : t.resolve classes = .ok r.arrayOf := by simpa [ht] using hr.marked
    have hitems : ∀ d ∈ items, d ≠ .null →
        ∃ v, ofDatum (some t.unmarked) d = .ok v ∧ WellTagged r v ∧ v.content = d := by
      intro d hd hne
      obtain ⟨r', v, hr', hv, hw, hcontent⟩ := ih d hd hne hl.unmarked
      obtain rfl := Except.ok.inj (hr.unmarked.symm.trans hr')
      exact ⟨v, hv, hw, hcontent⟩
    have hgeneric : Datum.null ∈ items → r.arrayOf.isGeneric = true := by
      intro hm
      exact isGeneric_arrayOf (hr.nullable.trans (hnull hm))
    obtain ⟨v, hv, hw, hcontent⟩ :=
      tagged_list (element?_of_array ht) r.part?_arrayOf hgeneric hitems
    exact ⟨r.arrayOf, v, hfull, hv, hw, hcontent⟩
  | @collection t a b ht hb hc ha items hnull h ih =>
    have hla : a.Lossless := by
      cases hl with
      | scalar hb' hscalar _ _ =>
        obtain rfl := Option.some.inj (Eq.trans (Eq.symm hb) hb')
        rcases hc with rfl | rfl <;> cases hscalar
      | collection _ _ ha' h =>
        obtain rfl := List.singleton_inj.mp (ha.symm.trans ha')
        exact h
    obtain ⟨e, he⟩ := hla.resolves classes
    obtain ⟨r, hr, -⟩ := he.result
    obtain ⟨c, hshape, _, hfull⟩ := resolve_collection hb hc ha hr
    have hfull : t.resolve classes = .ok c := by simpa [ht] using hfull
    have hpart : c.part? = some r := by rcases hshape with rfl | rfl <;> rfl
    have hgeneric : c.isGeneric = true := by rcases hshape with rfl | rfl <;> rfl
    have hitems : ∀ d ∈ items, d ≠ .null →
        ∃ v, ofDatum (some a) d = .ok v ∧ WellTagged r v ∧ v.content = d := by
      intro d hd hne
      obtain ⟨r', v, hr', hv, hw, hcontent⟩ := ih d hd hne hla
      obtain rfl := Except.ok.inj (hr.symm.trans hr')
      exact ⟨v, hv, hw, hcontent⟩
    obtain ⟨v, hv, hw, hcontent⟩ :=
      tagged_list (element?_of_argument ht ha) hpart (fun _ => hgeneric) hitems
    exact ⟨c, v, hfull, hv, hw, hcontent⟩

theorem Admits.tagged {t : TypeExpr} {raw : Datum} (h : t.Admits raw) (ht : t.Lossless)
    {classes : ClassRegistry} {r : ResolvedType} (hr : t.resolve classes = .ok r) :
    ∃ v, ofDatum (some t) raw = .ok v ∧ (v ≠ .null → WellTagged r v) ∧ v.content = raw := by
  rcases h with rfl | h
  · exact ⟨.null, rfl, fun hn => absurd rfl hn, rfl⟩
  · obtain ⟨r', v, hr', hv, hwell, hcontent⟩ := h.tagged ht classes
    obtain rfl := Except.ok.inj (hr.symm.trans hr')
    exact ⟨v, hv, fun _ => hwell, hcontent⟩

end TypeExpr

end BuildConstants
