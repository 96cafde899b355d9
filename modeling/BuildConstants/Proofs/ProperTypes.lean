import BuildConstants.Proofs.BuiltinTypes
import Mathlib.Data.List.Forall2

/-!
# Which types resolve, and to what

One relation says what resolution builds at a declared type, its array mark put aside: a built-in
type, a list or set of one argument, or a registered class. From it follow both directions: what is
asked of a declared type to resolve, and which resolved types there are.
-/

namespace BuildConstants

open Outcome ResolvedType

namespace TypeExpr

mutual

/-- The type and all types that stand in it as arguments. -/
def components : TypeExpr → List TypeExpr
  | ⟨name, array, nullable, arguments⟩ =>
    ⟨name, array, nullable, arguments⟩ :: allComponents arguments

def allComponents : List TypeExpr → List TypeExpr
  | [] => []
  | t :: rest => t.components ++ allComponents rest

end

theorem allComponents_eq (ts : List TypeExpr) : allComponents ts = ts.flatMap components := by
  induction ts with
  | nil => rfl
  | cons t rest ih => rw [allComponents, ih, List.flatMap_cons]

theorem forall_components_iff {P : TypeExpr → Prop} {t : TypeExpr} :
    (∀ u ∈ t.components, P u) ↔ P t ∧ ∀ a ∈ t.arguments, ∀ u ∈ a.components, P u := by
  obtain ⟨name, array, nullable, arguments⟩ := t
  simp only [components, allComponents_eq, List.forall_mem_cons, List.forall_mem_flatMap]

/-- The name is known, and the type takes the arguments that it is given. -/
structure Admissible (classes : ClassRegistry) (t : TypeExpr) : Prop where
  known : (∃ b, t.Names b) ∨ ∃ entry, classes.lookup t.name = some entry
  takes : t.arguments ≠ [] →
    (t.Names .list ∨ t.Names .set) ∧ t.arguments.length = 1 ∨
      (∀ b, ¬ t.Names b) ∧ ∃ entry, classes.lookup t.name = some entry ∧ entry.container = true

end TypeExpr

namespace ResolvedType

mutual

/-- The type and all types that occur in it. -/
def components : ResolvedType → List ResolvedType
  | .array (some e) n => .array (some e) n :: e.components
  | .list (some e) n => .list (some e) n :: e.components
  | .set (some e) n => .set (some e) n :: e.components
  | .named q as c n => .named q as c n :: allComponents as
  | t => [t]

def allComponents : List ResolvedType → List ResolvedType
  | [] => []
  | t :: rest => t.components ++ allComponents rest

end

def children : ResolvedType → List ResolvedType
  | array e _ | list e _ | set e _ => e.toList
  | named _ as _ _ => as
  | _ => []

theorem allComponents_eq (ts : List ResolvedType) : allComponents ts = ts.flatMap components := by
  induction ts with
  | nil => rfl
  | cons t rest ih => rw [allComponents, ih, List.flatMap_cons]

theorem forall_components_iff {P : ResolvedType → Prop} {t : ResolvedType} :
    (∀ u ∈ t.components, P u) ↔ P t ∧ ∀ c ∈ t.children, ∀ u ∈ c.components, P u := by
  match t with
  | array none _ | array (some _) _ | list none _ | list (some _) _ | set none _
  | set (some _) _ => simp [components, children]
  | named .. =>
    simp only [components, children, allComponents_eq, List.forall_mem_cons,
      List.forall_mem_flatMap]
  | primitive .. | string _ | primitiveArray .. => simp [components, children]

def isArray : ResolvedType → Bool
  | primitiveArray .. | array .. => true
  | _ => false

/-- Arrays are never null and hold one type, neither an array nor a primitive that has arrays of its
own. Only containers have arguments. -/
def Proper : ResolvedType → Prop
  | primitiveArray _ n => n = false
  | array e n => n = false ∧
    ∃ t, e = some t ∧ t.isArray = false ∧ ∀ k m, t = primitive k m → m = true
  | named _ as c _ => as ≠ [] → c = true
  | _ => True

/-- The kind is that of a primitive type, the class one that a name stands for. -/
def Grounded (classes : ClassRegistry) : ResolvedType → Prop
  | primitive k _ | primitiveArray k _ => k.isPrimitive = true
  | named q _ c _ => ∃ name, Builtin.ofName? name = none ∧ classes.lookup name = some ⟨q, c⟩
  | _ => True

end ResolvedType

namespace TypeExpr

section Resolution

variable {classes : ClassRegistry} {t : TypeExpr}

theorem resolveAll_eq_ok_iff {ts : List TypeExpr} {rs : List ResolvedType} :
    resolveAll classes ts = .ok rs ↔ List.Forall₂ (fun t r => t.resolve classes = .ok r) ts rs := by
  induction ts generalizing rs with
  | nil =>
    rw [List.forall₂_nil_left_iff]
    exact ⟨fun h => (Except.ok.inj h).symm, fun h => h ▸ rfl⟩
  | cons t rest ih =>
    rw [resolveAll_cons, bind_eq_ok_iff]
    simp only [bind_eq_ok_iff, ih, Except.ok.injEq]
    constructor
    · rintro ⟨r, hr, rs, hrs, rfl⟩
      exact .cons hr hrs
    · rintro ⟨⟩
      rename_i r rs hr hrs
      exact ⟨r, hr, rs, hrs, rfl⟩

theorem exists_right_of_forall₂ {α β : Type} {R : α → β → Prop} {as : List α} {bs : List β}
    (h : List.Forall₂ R as bs) : ∀ a ∈ as, ∃ b ∈ bs, R a b := by
  induction h with
  | nil => nofun
  | @cons a b as bs hab _ ih =>
    refine List.forall_mem_cons.mpr ⟨⟨b, List.mem_cons_self, hab⟩, fun a' ha' => ?_⟩
    obtain ⟨b', hb', h⟩ := ih a' ha'
    exact ⟨b', List.mem_cons_of_mem b hb', h⟩

theorem exists_forall₂ {α β : Type} {R : α → β → Prop} {as : List α}
    (h : ∀ a ∈ as, ∃ b, R a b) : ∃ bs, List.Forall₂ R as bs := by
  induction as with
  | nil => exact ⟨[], .nil⟩
  | cons a rest ih =>
    obtain ⟨b, hb⟩ := h a List.mem_cons_self
    obtain ⟨bs, hbs⟩ := ih fun a' ha' => h a' (List.mem_cons_of_mem a ha')
    exact ⟨b :: bs, .cons hb hbs⟩

/-- What a declared type resolves to, its array mark put aside. -/
inductive Builds (classes : ClassRegistry) (t : TypeExpr) : ResolvedType → Prop
  | bare {b : Builtin} (hb : t.Names b) (ha : t.arguments = []) :
      Builds classes t ((ofBuiltin b false t.nullable).mark false t.nullable)
  | list {a : TypeExpr} {r : ResolvedType} (hb : t.Names .list) (ha : t.arguments = [a])
      (hr : a.resolve classes = .ok r) : Builds classes t (.list (some r) t.nullable)
  | set {a : TypeExpr} {r : ResolvedType} (hb : t.Names .set) (ha : t.arguments = [a])
      (hr : a.resolve classes = .ok r) : Builds classes t (.set (some r) t.nullable)
  | named {entry : ClassEntry} {rs : List ResolvedType} (hb : Builtin.ofName? t.name = none)
      (hentry : classes.lookup t.name = some entry)
      (hc : t.arguments ≠ [] → entry.container = true)
      (hrs : List.Forall₂ (fun a r => a.resolve classes = .ok r) t.arguments rs) :
      Builds classes t (.named entry.qualified rs entry.container t.nullable)

/-- What takes arguments, and every class, is marked as an array last. -/
theorem mark_base {e : ResolvedType} (hscalar : e.scalarKind? = none) (he : e.isArray = false)
    (hn : e.nullable = false) (array nullable : Bool) : e.mark array nullable =
      if array then (e.withNullable nullable).arrayOf else e.withNullable nullable := by
  match e, hscalar, he, hn with
  | .list a false, _, _, _ | .set a false, _, _, _ | .named q as c false, _, _, _ =>
    cases array <;> cases nullable <;> rfl

theorem ofName_of_entry {name : String} {entry : ClassEntry} (array nullable : Bool)
    (hb : Builtin.ofName? name = none) (hentry : classes.lookup name = some entry) :
    ofName name array nullable classes = .ok (.named entry.qualified [] entry.container false) := by
  simp only [ofName, hb, hentry]

theorem exists_name_of_resolve {r : ResolvedType} (h : t.resolve classes = .ok r) :
    (∃ b, t.Names b) ∨
      Builtin.ofName? t.name = none ∧ ∃ entry, classes.lookup t.name = some entry := by
  cases hb : Builtin.ofName? t.name with
  | some b => exact .inl ⟨b, hb⟩
  | none =>
    cases hentry : classes.lookup t.name with
    | some entry => exact .inr ⟨rfl, entry, rfl⟩
    | none =>
      obtain ⟨name, array, nullable, arguments⟩ := t
      have hunknown : ofName name array nullable classes = .error (.unknownType name) := by
        simp only [ofName, hb, hentry]
      cases arguments <;> simp [resolve_nil, resolve_cons, hunknown] at h

theorem exists_builds_of_entry {entry : ClassEntry} (hb : Builtin.ofName? t.name = none)
    (hentry : classes.lookup t.name = some entry) {r : ResolvedType}
    (h : t.resolve classes = .ok r) : ∃ e, Builds classes t e := by
  obtain ⟨name, array, nullable, arguments⟩ := t
  cases arguments with
  | nil => exact ⟨_, .named hb hentry (absurd rfl) .nil⟩
  | cons a rest =>
    rw [resolve_cons, ofName_of_entry array nullable hb hentry, ok_bind] at h
    obtain ⟨first, hfirst, h⟩ := bind_eq_ok_iff.mp h
    obtain ⟨others, hothers, h⟩ := bind_eq_ok_iff.mp h
    obtain ⟨full, hfull, -⟩ := bind_eq_ok_iff.mp h
    have hall : resolveAll classes (a :: rest) = .ok (first :: others) := by
      simp [resolveAll_cons, hfirst, hothers]
    have hc : entry.container = true := by
      by_contra hc
      rw [Bool.not_eq_true] at hc
      simp [hc, withArguments] at hfull
    exact ⟨_, .named hb hentry (fun _ => hc) (resolveAll_eq_ok_iff.mp hall)⟩

theorem exists_builds_of_names {b : Builtin} (hb : t.Names b) {r : ResolvedType}
    (h : t.resolve classes = .ok r) : ∃ e, Builds classes t e := by
  cases ha : t.arguments with
  | nil => exact ⟨_, .bare hb ha⟩
  | cons a rest =>
    obtain ⟨rfl, hc, element, helement⟩ := collection_of_resolve hb ha h
    rcases hc with rfl | rfl
    · exact ⟨_, .list hb ha helement⟩
    · exact ⟨_, .set hb ha helement⟩

theorem resolve_of_builds {e : ResolvedType} (h : Builds classes t e) :
    t.resolve classes = .ok (if t.array then e.arrayOf else e) := by
  cases h with
  | bare hb ha => exact (resolves_of_no_arguments classes hb ha).marked
  | @list a r hb ha hr =>
    rw [resolve_of_argument hb ha hr]
    exact congrArg _ (mark_base (e := .list (some r) false) rfl rfl rfl _ _)
  | @set a r hb ha hr =>
    rw [resolve_of_argument hb ha hr]
    exact congrArg _ (mark_base (e := .set (some r) false) rfl rfl rfl _ _)
  | @named entry rs hb hentry hc hrs =>
    obtain ⟨name, array, nullable, arguments⟩ := t
    cases hrs with
    | nil =>
      rw [resolve_nil, ofName_of_entry array nullable hb hentry, ok_bind, mark_base rfl rfl rfl]
      rfl
    | @cons a r rest others hr hothers =>
      have hc : entry.container = true := hc (List.cons_ne_nil a rest)
      have hmark := mark_base (e := .named entry.qualified (r :: others) true false) rfl rfl rfl
      rw [resolve_cons, ofName_of_entry array nullable hb hentry, hr,
        resolveAll_eq_ok_iff.mpr hothers, hc]
      exact congrArg _ (hmark array nullable)

theorem resolve_eq_ok_iff {r : ResolvedType} : t.resolve classes = .ok r ↔
    ∃ e, Builds classes t e ∧ r = if t.array then e.arrayOf else e := by
  constructor
  · intro h
    obtain ⟨e, he⟩ : ∃ e, Builds classes t e := by
      obtain ⟨b, hb⟩ | ⟨hb, entry, hentry⟩ := exists_name_of_resolve h
      · exact exists_builds_of_names hb h
      · exact exists_builds_of_entry hb hentry h
    exact ⟨e, he, Except.ok.inj (h.symm.trans (resolve_of_builds he))⟩
  · rintro ⟨e, he, rfl⟩
    exact resolve_of_builds he

/-- The array mark plays no part. -/
theorem builds_remark {e : ResolvedType} (h : Builds classes t e) (array : Bool) :
    Builds classes ⟨t.name, array, t.nullable, t.arguments⟩ e := by
  cases h with
  | bare hb ha => exact .bare hb ha
  | list hb ha hr => exact .list hb ha hr
  | set hb ha hr => exact .set hb ha hr
  | named hb hentry hc hrs => exact .named hb hentry hc hrs

/-! ### What a type has to be to resolve -/

theorem admissible_of_builds {e : ResolvedType} (h : Builds classes t e) :
    Admissible classes t := by
  cases h with
  | bare hb ha => exact ⟨.inl ⟨_, hb⟩, absurd ha⟩
  | list hb ha hr => exact ⟨.inl ⟨_, hb⟩, fun _ => .inl ⟨.inl hb, by rw [ha]; rfl⟩⟩
  | set hb ha hr => exact ⟨.inl ⟨_, hb⟩, fun _ => .inl ⟨.inr hb, by rw [ha]; rfl⟩⟩
  | @named entry rs hb hentry hc hrs =>
    refine ⟨.inr ⟨entry, hentry⟩, fun ha => .inr ⟨fun b hb' => ?_, entry, hentry, hc ha⟩⟩
    exact Option.some_ne_none b (hb'.symm.trans hb)

theorem arguments_of_builds {e : ResolvedType} (h : Builds classes t e) :
    ∀ a ∈ t.arguments, ∃ r, a.resolve classes = .ok r := by
  cases h with
  | bare hb ha => simp [ha]
  | list hb ha hr | set hb ha hr => simp [ha, hr]
  | named hb hentry hc hrs =>
    intro a ha
    obtain ⟨r, -, hr⟩ := exists_right_of_forall₂ hrs a ha
    exact ⟨r, hr⟩

theorem Admissible.exists_builds (h : Admissible classes t)
    (hargs : ∀ a ∈ t.arguments, ∃ r, a.resolve classes = .ok r) : ∃ e, Builds classes t e := by
  by_cases hb : ∃ b, t.Names b
  · obtain ⟨b, hb⟩ := hb
    by_cases ha : t.arguments = []
    · exact ⟨_, .bare hb ha⟩
    obtain ⟨hc, hlength⟩ | ⟨hnone, -⟩ := h.takes ha
    · obtain ⟨a, ha⟩ := List.length_eq_one_iff.mp hlength
      obtain ⟨r, hr⟩ := hargs a (by simp [ha])
      obtain hlist | hset := hc
      · exact ⟨_, .list hlist ha hr⟩
      · exact ⟨_, .set hset ha hr⟩
    · exact absurd hb (hnone b)
  · have hnone : Builtin.ofName? t.name = none :=
      Option.eq_none_iff_forall_ne_some.mpr fun b hb' => hb ⟨b, hb'⟩
    obtain ⟨entry, hentry⟩ := h.known.resolve_left hb
    obtain ⟨rs, hrs⟩ := exists_forall₂ hargs
    refine ⟨_, .named hnone hentry (fun ha => ?_) hrs⟩
    obtain ⟨hc, -⟩ | ⟨-, entry', hentry', hc⟩ := h.takes ha
    · exact absurd (hc.elim (⟨_, ·⟩) (⟨_, ·⟩)) hb
    · obtain rfl := Option.some.inj (hentry.symm.trans hentry')
      exact hc

theorem exists_resolve_iff : (∃ r, t.resolve classes = .ok r) ↔
    Admissible classes t ∧ ∀ a ∈ t.arguments, ∃ r, a.resolve classes = .ok r := by
  constructor
  · rintro ⟨r, hr⟩
    obtain ⟨e, he, -⟩ := resolve_eq_ok_iff.mp hr
    exact ⟨admissible_of_builds he, arguments_of_builds he⟩
  · rintro ⟨h, hargs⟩
    obtain ⟨e, he⟩ := h.exists_builds hargs
    exact ⟨_, resolve_of_builds he⟩

theorem exists_resolve_iff_components (t : TypeExpr) :
    (∃ r, t.resolve classes = .ok r) ↔ ∀ u ∈ t.components, Admissible classes u := by
  induction t using TypeExpr.induction with
  | step name array nullable arguments ih =>
    rw [exists_resolve_iff, forall_components_iff]
    exact and_congr_right fun _ => forall₂_congr ih

/-! ### How resolution fails -/

theorem failsOnly_ofName (name : String) (array nullable : Bool) :
    FailsOnly (fun e => e.family = .resolution) (ofName name array nullable classes) := by
  rw [ofName]
  split
  · exact failsOnly_ok _
  · split
    · exact failsOnly_ok _
    · exact failsOnly_error rfl

theorem failsOnly_withArguments (base : ResolvedType) (name : String) (rs : List ResolvedType) :
    FailsOnly (fun e => e.family = .resolution) (base.withArguments name rs) := by
  unfold withArguments
  split
  · split
    · exact failsOnly_ok _
    · exact failsOnly_error rfl
  · split
    · exact failsOnly_ok _
    · exact failsOnly_error rfl
  · exact failsOnly_ok _
  · exact failsOnly_error rfl

theorem failsOnly_resolveAll {P : Fault → Prop} {ts : List TypeExpr}
    (h : ∀ t ∈ ts, FailsOnly P (t.resolve classes)) : FailsOnly P (resolveAll classes ts) := by
  induction ts with
  | nil => exact failsOnly_ok _
  | cons t rest ih =>
    rw [resolveAll_cons]
    refine (h t List.mem_cons_self).bind fun r _ => ?_
    refine (ih fun u hu => h u (List.mem_cons_of_mem t hu)).bind fun rs _ => ?_
    exact failsOnly_ok _

theorem failsOnly_resolve (t : TypeExpr) :
    FailsOnly (fun e => e.family = .resolution) (t.resolve classes) := by
  induction t using TypeExpr.induction with
  | step name array nullable arguments ih =>
    cases arguments with
    | nil =>
      rw [resolve_nil]
      exact (failsOnly_ofName name array nullable).bind fun _ _ => failsOnly_ok _
    | cons a rest =>
      rw [resolve_cons]
      have hrest := failsOnly_resolveAll fun u hu => ih u (List.mem_cons_of_mem a hu)
      refine (failsOnly_ofName name array nullable).bind fun base _ => ?_
      refine (ih a List.mem_cons_self).bind fun r _ => hrest.bind fun rs _ => ?_
      exact (failsOnly_withArguments base name (r :: rs)).bind fun _ _ => failsOnly_ok _

end Resolution

end TypeExpr

/-! ### Which types are results -/

namespace ResolvedType

variable {classes : ClassRegistry} {t : ResolvedType}

def WellFormed (classes : ClassRegistry) (t : ResolvedType) : Prop :=
  ∀ u ∈ t.components, u.Proper ∧ u.Grounded classes

theorem wellFormed_iff : t.WellFormed classes ↔
    (t.Proper ∧ t.Grounded classes) ∧ ∀ c ∈ t.children, c.WellFormed classes :=
  forall_components_iff

theorem sizeOf_lt_of_mem_children {c : ResolvedType} (h : c ∈ t.children) :
    sizeOf c < sizeOf t := by
  match t, h with
  | array (some e) n, h | list (some e) n, h | set (some e) n, h =>
    obtain rfl := List.mem_singleton.mp h
    simp
    omega
  | named q as d n, h =>
    have hlt : sizeOf c < sizeOf as := List.sizeOf_lt_of_mem h
    simp
    omega

theorem induction {P : ResolvedType → Prop} (step : ∀ t, (∀ c ∈ t.children, P c) → P t)
    (t : ResolvedType) : P t :=
  step t fun c _ => induction step c
termination_by sizeOf t
decreasing_by exact sizeOf_lt_of_mem_children ‹_›

theorem arrayOf_eq (h : ∀ k, t ≠ primitive k false) : t.arrayOf = array (some t) false := by
  match t, h with
  | primitive k false, h => exact absurd rfl (h k)
  | primitive _ true, _ | string _, _ | primitiveArray .., _ | array .., _ | list .., _
  | set .., _ | named .., _ => rfl

theorem isArray_arrayOf (t : ResolvedType) : t.arrayOf.isArray = true := by
  match t with
  | primitive _ true | primitive _ false => rfl
  | string _ | primitiveArray .. | array .. | list .. | set .. | named .. => rfl

theorem WellFormed.arrayOf (h : t.WellFormed classes) (ha : t.isArray = false) :
    t.arrayOf.WellFormed classes := by
  by_cases hprimitive : ∃ k, t = primitive k false
  · obtain ⟨k, rfl⟩ := hprimitive
    have hk : k.isPrimitive = true := (wellFormed_iff.mp h).1.2
    exact wellFormed_iff.mpr ⟨⟨rfl, hk⟩, nofun⟩
  · rw [arrayOf_eq fun k hk => hprimitive ⟨k, hk⟩]
    refine wellFormed_iff.mpr ⟨⟨⟨rfl, t, rfl, ha, ?_⟩, trivial⟩, ?_⟩
    · rintro k m rfl
      cases m with
      | true => rfl
      | false => exact absurd ⟨k, rfl⟩ hprimitive
    · rintro c hc
      obtain rfl := List.mem_singleton.mp hc
      exact h

/-- An array that is a result is that of its parts. -/
theorem WellFormed.exists_arrayOf (h : t.WellFormed classes) (ha : t.isArray = true) :
    ∃ e, t = e.arrayOf ∧ e.isArray = false ∧ e.WellFormed classes ∧
      (e ∈ t.children ∨ ∃ k, e = primitive k false) := by
  match t, ha with
  | primitiveArray k n, _ =>
    obtain ⟨⟨hn, hk⟩, -⟩ := wellFormed_iff.mp h
    obtain rfl : n = false := hn
    exact ⟨primitive k false, rfl, rfl, wellFormed_iff.mpr ⟨⟨trivial, hk⟩, nofun⟩, .inr ⟨k, rfl⟩⟩
  | array e n, _ =>
    obtain ⟨⟨⟨hn, e, he, harray, hprimitive⟩, -⟩, hchildren⟩ := wellFormed_iff.mp h
    obtain rfl := hn
    obtain rfl := he
    have hmem : e ∈ (array (some e) false).children := List.mem_singleton_self e
    refine ⟨e, (arrayOf_eq ?_).symm, harray, hchildren e hmem, .inl hmem⟩
    rintro k rfl
    cases hprimitive k false rfl

theorem wellFormed_ofBuiltin (b : Builtin) (n : Bool) :
    ((ofBuiltin b false n).mark false n).WellFormed classes := by
  refine wellFormed_iff.mpr ?_
  cases b with
  | string | list | set => cases n <;> exact ⟨⟨trivial, trivial⟩, nofun⟩
  | boolean | byte | short | char | int | long | float | double =>
    cases n <;> exact ⟨⟨trivial, rfl⟩, nofun⟩

theorem isArray_ofBuiltin (b : Builtin) (n : Bool) :
    ((ofBuiltin b false n).mark false n).isArray = false := by
  cases b <;> cases n <;> rfl

theorem exists_primitive {k : ScalarKind} (h : k.isPrimitive = true) :
    ∃ b : Builtin, b.primitive? = some k := by
  cases k with
  | string | other => cases h
  | boolean => exact ⟨.boolean, rfl⟩
  | byte => exact ⟨.byte, rfl⟩
  | short => exact ⟨.short, rfl⟩
  | char => exact ⟨.char, rfl⟩
  | int => exact ⟨.int, rfl⟩
  | long => exact ⟨.long, rfl⟩
  | float => exact ⟨.float, rfl⟩
  | double => exact ⟨.double, rfl⟩

theorem mark_of_primitive {b : Builtin} {k : ScalarKind} (h : b.primitive? = some k) (n : Bool) :
    (ofBuiltin b false n).mark false n = primitive k n := by
  cases b <;> cases h <;> cases n <;> rfl

end ResolvedType

namespace TypeExpr

variable {classes : ClassRegistry} {t : TypeExpr}

theorem isArray_of_builds {e : ResolvedType} (h : Builds classes t e) : e.isArray = false := by
  cases h with
  | bare hb ha => exact isArray_ofBuiltin _ _
  | list hb ha hr | set hb ha hr | named hb hentry hc hrs => rfl

theorem wellFormed_of_builds {e : ResolvedType} (h : Builds classes t e)
    (ih : ∀ a ∈ t.arguments, ∀ r, a.resolve classes = .ok r → r.WellFormed classes) :
    e.WellFormed classes := by
  cases h with
  | bare hb ha => exact wellFormed_ofBuiltin _ _
  | @list a r hb ha hr | @set a r hb ha hr =>
    refine wellFormed_iff.mpr ⟨⟨trivial, trivial⟩, fun c hc => ?_⟩
    obtain rfl := List.mem_singleton.mp hc
    exact ih a (by simp [ha]) c hr
  | @named entry rs hb hentry hc hrs =>
    refine wellFormed_iff.mpr ⟨⟨fun has => hc ?_, t.name, hb, hentry⟩, fun c hc => ?_⟩
    · rintro ha
      rw [ha] at hrs
      cases hrs
      exact has rfl
    · obtain ⟨a, ha, hr⟩ := exists_right_of_forall₂ hrs.flip c hc
      exact ih a ha c hr

theorem wellFormed_of_resolve (t : TypeExpr) :
    ∀ r, t.resolve classes = .ok r → r.WellFormed classes := by
  induction t using TypeExpr.induction with
  | step name array nullable arguments ih =>
    intro r hr
    obtain ⟨e, he, rfl⟩ := resolve_eq_ok_iff.mp hr
    have h := wellFormed_of_builds he ih
    split
    · exact h.arrayOf (isArray_of_builds he)
    · exact h

theorem names_name (b : Builtin) (array nullable : Bool) (arguments : List TypeExpr) :
    Names ⟨b.name, array, nullable, arguments⟩ b := by
  show Builtin.ofName? b.name = some b
  cases b <;> decide

theorem exists_builds_of_builtin {e : ResolvedType} (b : Builtin) (n : Bool)
    (he : (ofBuiltin b false n).mark false n = e) :
    ∃ t : TypeExpr, Builds classes t e :=
  ⟨⟨b.name, false, n, []⟩, he ▸ .bare (names_name b false n []) rfl⟩

theorem exists_builds {e : ResolvedType} (h : e.WellFormed classes) (ha : e.isArray = false)
    (ih : ∀ c ∈ e.children, ∃ t : TypeExpr, t.resolve classes = .ok c) :
    ∃ t : TypeExpr, Builds classes t e := by
  match e, ha with
  | .primitive k n, _ =>
    obtain ⟨b, hb⟩ := exists_primitive (wellFormed_iff.mp h).1.2
    exact exists_builds_of_builtin b n (mark_of_primitive hb n)
  | .string n, _ => exact exists_builds_of_builtin .string n (by cases n <;> rfl)
  | .list none n, _ => exact exists_builds_of_builtin .list n (by cases n <;> rfl)
  | .set none n, _ => exact exists_builds_of_builtin .set n (by cases n <;> rfl)
  | .list (some r) n, _ =>
    obtain ⟨a, hr⟩ := ih r (List.mem_singleton_self r)
    exact ⟨_, .list (names_name .list false n [a]) rfl hr⟩
  | .set (some r) n, _ =>
    obtain ⟨a, hr⟩ := ih r (List.mem_singleton_self r)
    exact ⟨_, .set (names_name .set false n [a]) rfl hr⟩
  | .named q as c n, _ =>
    obtain ⟨⟨hc, name, hb, hentry⟩, -⟩ := wellFormed_iff.mp h
    obtain ⟨ts, hts⟩ := exists_forall₂ ih
    have hnamed : ts ≠ [] → c = true := by
      refine fun hne => hc ?_
      rintro rfl
      cases hts
      exact hne rfl
    exact ⟨⟨name, false, n, ts⟩, @Builds.named classes _ ⟨q, c⟩ as hb hentry hnamed hts.flip⟩

theorem builds_of_resolve {e : ResolvedType} (he : e.isArray = false)
    (h : t.resolve classes = .ok e) : Builds classes t e := by
  obtain ⟨e', hbuilds, heq⟩ := resolve_eq_ok_iff.mp h
  split at heq
  · rw [heq, isArray_arrayOf] at he
    cases he
  · exact heq ▸ hbuilds

theorem exists_resolve_eq (r : ResolvedType) (h : r.WellFormed classes) :
    ∃ t : TypeExpr, t.resolve classes = .ok r := by
  induction r using ResolvedType.induction with
  | step r ih =>
    have hchildren c (hc : c ∈ r.children) : ∃ t : TypeExpr, t.resolve classes = .ok c :=
      ih c hc ((wellFormed_iff.mp h).2 c hc)
    cases ha : r.isArray with
    | false =>
      obtain ⟨t, ht⟩ := exists_builds h ha hchildren
      exact ⟨_, resolve_of_builds (builds_remark ht false)⟩
    | true =>
      obtain ⟨e, rfl, hearray, he, hmem⟩ := h.exists_arrayOf ha
      obtain ⟨t, ht⟩ : ∃ t : TypeExpr, Builds classes t e := by
        obtain hmem | ⟨k, rfl⟩ := hmem
        · obtain ⟨t, ht⟩ := hchildren e hmem
          exact ⟨t, builds_of_resolve hearray ht⟩
        · exact exists_builds he rfl nofun
      exact ⟨_, resolve_of_builds (builds_remark ht true)⟩

/-- Resolution succeeds on the types that are admissible throughout and fails on all others with a
fault of its own family. Its results are all the types that are well-formed throughout. -/
theorem resolve_exact (classes : ClassRegistry) :
    (∀ t : TypeExpr,
      ((∃ r, t.resolve classes = .ok r) ↔ ∀ u ∈ t.components, Admissible classes u) ∧
      ((∃ e, t.resolve classes = .error e ∧ e.family = .resolution) ↔
        ¬ ∀ u ∈ t.components, Admissible classes u)) ∧
    ∀ r : ResolvedType, (∃ t : TypeExpr, t.resolve classes = .ok r) ↔
      ∀ u ∈ r.components, u.Proper ∧ u.Grounded classes := by
  refine ⟨fun t => ⟨exists_resolve_iff_components t, ?_⟩, fun r => ⟨?_, exists_resolve_eq r⟩⟩
  · rw [← exists_resolve_iff_components]
    cases h : t.resolve classes with
    | ok r => simp
    | error e => simp [failsOnly_resolve t e h]
  · rintro ⟨t, ht⟩
    exact wellFormed_of_resolve t r ht

/-- An array of boxes is a result where boxes are registered. An array of integers that is not a
primitive one is none, and integers take no arguments. -/
theorem resolve_exact_boxes :
    let boxes : ClassRegistry := ⟨[("Box", ⟨"a.Box", true⟩)]⟩
    let box : ResolvedType := .named "a.Box" [.primitiveArray .int false] true true
    (∃ t : TypeExpr, t.resolve boxes = .ok (.array (some box) false)) ∧
      (¬ ∃ t : TypeExpr, t.resolve boxes = .ok (.array (some (.primitive .int false)) false)) ∧
      ∃ e, resolve boxes ⟨"int", false, false, [⟨"Box", false, false, []⟩]⟩ = .error e ∧
        e.family = .resolution := by
  intro boxes box
  obtain ⟨hdeclared, hresult⟩ := resolve_exact boxes
  refine ⟨(hresult _).mpr ?_, fun h => ?_, (hdeclared _).2.mpr fun h => ?_⟩
  · have hints : WellFormed boxes (.primitiveArray .int false) :=
      wellFormed_iff.mpr ⟨⟨rfl, rfl⟩, nofun⟩
    have hbox : box.WellFormed boxes :=
      wellFormed_iff.mpr ⟨⟨fun _ => rfl, "Box", by decide, by decide⟩,
        List.forall_mem_singleton.mpr hints⟩
    exact hbox.arrayOf rfl
  · obtain ⟨⟨-, e, he, -, hprimitive⟩, -⟩ := (hresult _).mp h _ List.mem_cons_self
    obtain rfl := Option.some.inj he
    cases hprimitive .int false rfl
  · obtain ⟨hc, -⟩ | ⟨hnone, -⟩ := (h _ List.mem_cons_self).takes (List.cons_ne_nil _ _)
    · revert hc
      decide
    · exact hnone .int (by decide)

end TypeExpr

end BuildConstants
