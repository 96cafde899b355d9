import BuildConstants.Dialect.Kotlin
import BuildConstants.Proofs.ArrayCreation
import BuildConstants.ResolvedType.Resolve

/-!
# What resolution builds

A resolved type comes from built-in types and registered classes by marks and type arguments. So
every resolved type has a name in both languages, and its classes are those of the registry.
-/

namespace BuildConstants

open Outcome

theorem ClassRegistry.mem_of_latest? {r : ClassRegistry} {passes : String → Bool}
    {entry : ClassEntry} (h : r.latest? passes = some entry) :
    ∃ key, (key, entry) ∈ r.entries := by
  rw [latest?, Option.map_eq_some_iff] at h
  obtain ⟨⟨key, _⟩, hfind, rfl⟩ := h
  exact ⟨key, List.mem_reverse.mp (List.mem_of_find?_eq_some hfind)⟩

theorem ClassRegistry.mem_of_lookup {r : ClassRegistry} {name : String} {entry : ClassEntry}
    (h : r.lookup name = some entry) : ∃ key, (key, entry) ∈ r.entries := by
  rcases Option.or_eq_some_iff.mp h with h | ⟨-, h⟩
  · exact mem_of_latest? h
  · exact mem_of_latest? h

namespace ResolvedType

/-- Holds of the types that a name alone gives and survives all that a declaration adds. -/
structure Kept (classes : ClassRegistry) (P : ResolvedType → Prop) : Prop where
  builtin : ∀ b array nullable, P (ofBuiltin b array nullable)
  entry : ∀ e ∈ classes.entries, P (.named e.2.qualified [] e.2.container false)
  withNullable : ∀ {t}, P t → P (t.withNullable true)
  array : ∀ {t}, P t → P (.array (some t) false)
  list : ∀ {t} n, P t → P (.list (some t) n)
  set : ∀ {t} n, P t → P (.set (some t) n)
  arguments : ∀ {q as as' n}, P (.named q as true n) → (∀ a ∈ as', P a) →
    P (.named q as' true n)

namespace Kept

variable {classes : ClassRegistry} {P : ResolvedType → Prop} {t : ResolvedType}

theorem mark (h : Kept classes P) (ht : P t) (array nullable : Bool) :
    P (t.mark array nullable) := by
  have hmarked : P (if nullable then t.withNullable true else t) := by
    split
    · exact h.withNullable ht
    · exact ht
  rw [ResolvedType.mark]
  split
  · split
    · rename_i heq
      rwa [heq] at hmarked
    · exact h.array hmarked
  · exact hmarked

theorem ofName (h : Kept classes P) {name : String} {array nullable : Bool}
    (ht : ofName name array nullable classes = .ok t) : P t := by
  rw [ResolvedType.ofName] at ht
  split at ht
  · obtain rfl := Except.ok.inj ht
    exact h.builtin _ array nullable
  · split at ht
    · rename_i entry hentry
      obtain rfl := Except.ok.inj ht
      obtain ⟨key, hkey⟩ := ClassRegistry.mem_of_lookup hentry
      exact h.entry (key, entry) hkey
    · cases ht

theorem withArguments (h : Kept classes P) {name : String} {arguments : List ResolvedType}
    (ht : P t) (ha : ∀ a ∈ arguments, P a) {full : ResolvedType}
    (hfull : t.withArguments name arguments = .ok full) : P full := by
  unfold ResolvedType.withArguments at hfull
  split at hfull
  · split at hfull
    · obtain rfl := Except.ok.inj hfull
      exact h.list _ (ha _ List.mem_cons_self)
    · cases hfull
  · split at hfull
    · obtain rfl := Except.ok.inj hfull
      exact h.set _ (ha _ List.mem_cons_self)
    · cases hfull
  · obtain rfl := Except.ok.inj hfull
    exact h.arguments ht ha
  · cases hfull

end Kept

end ResolvedType

namespace TypeExpr

open ResolvedType

variable {classes : ClassRegistry}

theorem resolve_nil (name : String) (array nullable : Bool) :
    resolve classes ⟨name, array, nullable, []⟩ =
      (ofName name array nullable classes >>= fun base => .ok (base.mark array nullable)) := rfl

theorem resolve_cons (name : String) (array nullable : Bool) (a : TypeExpr)
    (rest : List TypeExpr) : resolve classes ⟨name, array, nullable, a :: rest⟩ = (do
      let base ← ofName name array nullable classes
      let r ← a.resolve classes
      let rs ← resolveAll classes rest
      let full ← base.withArguments name (r :: rs)
      return full.mark array nullable) := rfl

theorem resolveAll_cons (t : TypeExpr) (rest : List TypeExpr) :
    resolveAll classes (t :: rest) = (t.resolve classes >>= fun r =>
      resolveAll classes rest >>= fun rs => .ok (r :: rs)) := rfl

theorem induction {P : TypeExpr → Prop}
    (step : ∀ name array nullable arguments, (∀ a ∈ arguments, P a) →
      P ⟨name, array, nullable, arguments⟩) : ∀ t, P t
  | ⟨name, array, nullable, arguments⟩ =>
    step name array nullable arguments fun a _ => induction step a

theorem forall_of_resolveAll {P : ResolvedType → Prop} {ts : List TypeExpr}
    {rs : List ResolvedType} (h : ∀ t ∈ ts, ∀ r, t.resolve classes = .ok r → P r)
    (hrs : resolveAll classes ts = .ok rs) : ∀ r ∈ rs, P r := by
  induction ts generalizing rs with
  | nil =>
    obtain rfl := Except.ok.inj hrs
    simp
  | cons t rest ih =>
    rw [resolveAll_cons] at hrs
    obtain ⟨r, hr, hrs⟩ := bind_eq_ok_iff.mp hrs
    obtain ⟨others, hothers, hrs⟩ := bind_eq_ok_iff.mp hrs
    obtain rfl := Except.ok.inj hrs
    have hfirst := h t List.mem_cons_self r hr
    have hrest := ih (fun t' ht' => h t' (List.mem_cons_of_mem t ht')) hothers
    exact List.forall_mem_cons.mpr ⟨hfirst, hrest⟩

end TypeExpr

open TypeExpr in
/-- What survives every step of resolution holds of its result. -/
theorem ResolvedType.Kept.resolve {classes : ClassRegistry} {P : ResolvedType → Prop}
    (h : Kept classes P) (t : TypeExpr) : ∀ r, t.resolve classes = .ok r → P r := by
  induction t using TypeExpr.induction with
  | step name array nullable arguments ih =>
    intro r hr
    cases arguments with
    | nil =>
      rw [resolve_nil] at hr
      obtain ⟨base, hbase, hr⟩ := bind_eq_ok_iff.mp hr
      obtain rfl := Except.ok.inj hr
      exact h.mark (h.ofName hbase) array nullable
    | cons a rest =>
      rw [resolve_cons] at hr
      obtain ⟨base, hbase, hr⟩ := bind_eq_ok_iff.mp hr
      obtain ⟨first, hfirst, hr⟩ := bind_eq_ok_iff.mp hr
      obtain ⟨rs, hrs, hr⟩ := bind_eq_ok_iff.mp hr
      obtain ⟨full, hfull, hr⟩ := bind_eq_ok_iff.mp hr
      obtain rfl := Except.ok.inj hr
      have hall : resolveAll classes (a :: rest) = .ok (first :: rs) := by
        simp [resolveAll_cons, hfirst, hrs]
      have harguments := forall_of_resolveAll ih hall
      exact h.mark (h.withArguments (h.ofName hbase) harguments hfull) array nullable

namespace Java

open ResolvedType

theorem allHaveNames_iff {ts : List ResolvedType} :
    allHaveNames ts = true ↔ ∀ t ∈ ts, hasName t = true := by
  induction ts with
  | nil => simp [allHaveNames]
  | cons t rest ih => simp [allHaveNames, ih]

theorem hasName_withNullable {t : ResolvedType} (h : hasName t = true) (n : Bool) :
    hasName (t.withNullable n) = true := by
  match t, h with
  | .array none _, h | .array (some e) _, h => exact h
  | .list none _, h | .list (some e) _, h | .set none _, h | .set (some e) _, h => exact h
  | .primitive .., h | .string _, h | .primitiveArray .., h | .named .., h => exact h

theorem hasName_ofBuiltin (b : Builtin) (array nullable : Bool) :
    hasName (ofBuiltin b array nullable) = true := by
  cases b <;> cases array <;> cases nullable <;> rfl

theorem kept_hasName (classes : ClassRegistry) : Kept classes fun t => hasName t = true where
  builtin := hasName_ofBuiltin
  entry _ _ := rfl
  withNullable h := hasName_withNullable h true
  array h := h
  list _ h := h
  set _ h := h
  arguments _ h := allHaveNames_iff.mpr h

end Java

theorem TypeExpr.hasName_of_resolve {classes : ClassRegistry} (t : TypeExpr) :
    ∀ r, t.resolve classes = .ok r → Java.hasName r = true :=
  (Java.kept_hasName classes).resolve t

namespace Kotlin

open ResolvedType

/-- The mark of null is the last part of a name. -/
theorem typeName_withNullable (t : ResolvedType) : ∃ base : Except Fault String, ∀ n,
    typeName (t.withNullable n) = base >>= fun name => .ok (name ++ nullMark n) := by
  match t with
  | .primitive k _ => exact ⟨primitiveName k, fun n => rfl⟩
  | .string _ => exact ⟨.ok "String", fun n => rfl⟩
  | .primitiveArray k _ =>
    exact ⟨primitiveName k >>= fun name => .ok (name ++ "Array"), fun n => by
      simp [ResolvedType.withNullable, typeName]⟩
  | .array none _ => exact ⟨.error .noElementType, fun n => rfl⟩
  | .array (some e) _ =>
    exact ⟨typeName e >>= fun name => .ok ("Array<" ++ name ++ ">"), fun n => by
      simp [ResolvedType.withNullable, typeName]⟩
  | .list none _ => exact ⟨.ok "List<*>", fun n => rfl⟩
  | .list (some e) _ =>
    exact ⟨typeName e >>= fun name => .ok ("List<" ++ name ++ ">"), fun n => by
      simp [ResolvedType.withNullable, typeName]⟩
  | .set none _ => exact ⟨.ok "Set<*>", fun n => rfl⟩
  | .set (some e) _ =>
    exact ⟨typeName e >>= fun name => .ok ("Set<" ++ name ++ ">"), fun n => by
      simp [ResolvedType.withNullable, typeName]⟩
  | .named q [] _ _ => exact ⟨.ok q, fun n => rfl⟩
  | .named q (a :: rest) _ _ =>
    exact ⟨typeNames (a :: rest) >>= fun names =>
      .ok (q ++ "<" ++ String.intercalate ", " names ++ ">"), fun n => by
      simp [ResolvedType.withNullable, typeName]⟩

def HasName (t : ResolvedType) : Prop :=
  ∃ name, typeName t = .ok name

theorem HasName.withNullable {t : ResolvedType} (h : HasName t) (n : Bool) :
    HasName (t.withNullable n) := by
  obtain ⟨base, hbase⟩ := typeName_withNullable t
  obtain ⟨name, hname⟩ := h
  rw [← withNullable_nullable t, hbase] at hname
  obtain ⟨short, rfl, -⟩ := bind_eq_ok_iff.mp hname
  exact ⟨_, hbase n⟩

theorem typeNames_of_forall {ts : List ResolvedType} (h : ∀ t ∈ ts, HasName t) :
    ∃ names, typeNames ts = .ok names := by
  induction ts with
  | nil => exact ⟨[], rfl⟩
  | cons t rest ih =>
    obtain ⟨name, hname⟩ := h t List.mem_cons_self
    obtain ⟨names, hnames⟩ := ih fun u hu => h u (List.mem_cons_of_mem t hu)
    exact ⟨name :: names, by simp [typeNames, hname, hnames]⟩

theorem hasName_ofBuiltin (b : Builtin) (array nullable : Bool) :
    HasName (ofBuiltin b array nullable) := by
  cases b <;> cases array <;> cases nullable <;> exact ⟨_, rfl⟩

theorem kept_hasName (classes : ClassRegistry) : Kept classes HasName where
  builtin := hasName_ofBuiltin
  entry _ _ := ⟨_, rfl⟩
  withNullable h := h.withNullable true
  array := by
    rintro t ⟨name, hname⟩
    simp [HasName, typeName, hname]
  list := by
    rintro t n ⟨name, hname⟩
    simp [HasName, typeName, hname]
  set := by
    rintro t n ⟨name, hname⟩
    simp [HasName, typeName, hname]
  arguments := by
    intro q as as' n _ h
    cases as' with
    | nil => exact ⟨_, rfl⟩
    | cons a rest =>
      obtain ⟨names, hnames⟩ := typeNames_of_forall h
      simp [HasName, typeName, hnames]

end Kotlin

namespace ResolvedType

theorem mem_allClassNames {q : String} {ts : List ResolvedType} :
    q ∈ allClassNames ts ↔ ∃ t ∈ ts, q ∈ t.classNames := by
  induction ts with
  | nil => simp [allClassNames]
  | cons t rest ih => simp [allClassNames, ih]

theorem classNames_withNullable (t : ResolvedType) (n : Bool) :
    (t.withNullable n).classNames = t.classNames := by
  match t with
  | .array (some e) _ | .list (some e) _ | .set (some e) _ => rfl
  | .array none _ | .list none _ | .set none _ => rfl
  | .primitive .. | .string _ | .primitiveArray .. | .named .. => rfl

theorem classNames_ofBuiltin (b : Builtin) (array nullable : Bool) :
    (ofBuiltin b array nullable).classNames = [] := by
  cases b <;> cases array <;> cases nullable <;> rfl

/-- The classes of a type are registered. -/
def Registered (classes : ClassRegistry) (t : ResolvedType) : Prop :=
  ∀ q ∈ t.classNames, ∃ e ∈ classes.entries, e.2.qualified = q

theorem kept_registered (classes : ClassRegistry) : Kept classes (Registered classes) where
  builtin b array nullable q hq := by
    rw [classNames_ofBuiltin] at hq
    cases hq
  entry e he q hq := by
    obtain rfl := List.mem_singleton.mp hq
    exact ⟨e, he, rfl⟩
  withNullable h q hq := by
    rw [classNames_withNullable] at hq
    exact h q hq
  array h := h
  list _ h := h
  set _ h := h
  arguments := by
    intro q as as' n hself h q' hq'
    rcases List.mem_cons.mp hq' with rfl | hq'
    · exact hself q' List.mem_cons_self
    · obtain ⟨a, ha, hq'⟩ := mem_allClassNames.mp hq'
      exact h a ha q' hq'

end ResolvedType

end BuildConstants
