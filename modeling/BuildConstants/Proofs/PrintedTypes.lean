import BuildConstants.Dialect.Java
import BuildConstants.Dialect.Kotlin
import BuildConstants.Proofs.LeafChecks
import BuildConstants.Proofs.ProperTypes
import BuildConstants.Proofs.ShorthandPrinting

/-!
# Printed type names as shorthand

Scalars, and lists and sets of them, print as shorthand for the very type that was printed: both
languages write names that are built in under one of their spellings, and angle brackets stand for
the same in all three notations. Only Kotlin writes where null may stand, so for Java nothing may
be nullable.
-/

namespace BuildConstants

open Outcome

namespace ResolvedType

/-- Scalars, and lists and sets of what is plain, all of them nullable only as said. -/
inductive Plain (P : Bool → Prop) : ResolvedType → Prop
  | primitive {k : ScalarKind} {n : Bool} (hk : k.isPrimitive = true) (hn : P n) :
      Plain P (.primitive k n)
  | string {n : Bool} (hn : P n) : Plain P (.string n)
  | list {e : ResolvedType} {n : Bool} (h : Plain P e) (hn : P n) :
      Plain P (.list (some e) n)
  | set {e : ResolvedType} {n : Bool} (h : Plain P e) (hn : P n) :
      Plain P (.set (some e) n)

/-- The text is the shorthand of a type that resolves to this one, whatever is registered. -/
def WrittenAs (r : ResolvedType) (text : String) : Prop :=
  ∃ t : TypeExpr, t.Writable ∧ t.text = text ∧ ∀ classes, t.resolve classes = .ok r

theorem WrittenAs.parse {r : ResolvedType} {text : String} (h : r.WrittenAs text) :
    ∃ t, TypeExpr.parse text = .ok t ∧ ∀ classes, t.resolve classes = .ok r := by
  obtain ⟨t, hwritable, rfl, hresolve⟩ := h
  obtain ⟨ts, hderives⟩ := hwritable.exists_derives
  exact ⟨t, TypeExpr.parse_text_of_derives hderives, hresolve⟩

end ResolvedType

namespace TypeExpr

open ResolvedType

/-! ### What a type over built-in names resolves to -/

theorem plain_ofBuiltin {P : Bool → Prop} {b : Builtin} (hb : b ≠ .list ∧ b ≠ .set) {n : Bool}
    (hn : P n) : Plain P ((ofBuiltin b false n).mark false n) := by
  cases hk : b.primitive? with
  | some k =>
    rw [mark_of_primitive hk]
    exact .primitive (Builtin.isPrimitive_of_primitive hk) hn
  | none =>
    cases b with
    | string => cases n <;> exact .string hn
    | list => exact absurd rfl hb.1
    | set => exact absurd rfl hb.2
    | boolean | byte | short | char | int | long | float | double => cases hk

/-- A built-in name without an array mark; lists and sets have arguments. -/
structure Parameterized (t : TypeExpr) : Prop where
  builtin : ∃ b, t.Names b
  array : t.array = false
  arguments : t.Names .list ∨ t.Names .set → t.arguments ≠ []

instance (t : TypeExpr) : Decidable t.Parameterized :=
  decidable_of_iff ((Builtin.ofName? t.name).isSome = true ∧ t.array = false ∧
      (t.Names .list ∨ t.Names .set → t.arguments.isEmpty = false)) <| by
    rw [Option.isSome_iff_exists, List.isEmpty_eq_false_iff]
    exact ⟨fun ⟨hb, ha, h⟩ => ⟨hb, ha, h⟩, fun ⟨hb, ha, h⟩ => ⟨hb, ha, h⟩⟩

theorem plain_of_resolve {classes : ClassRegistry} {P : Bool → Prop} (t : TypeExpr) :
    (∀ u ∈ t.components, u.Parameterized ∧ P u.nullable) →
      ∀ r, t.resolve classes = .ok r → Plain P r := by
  induction t using TypeExpr.induction with
  | step name array nullable arguments ih =>
    intro h r hr
    obtain ⟨⟨hself, hn⟩, harguments⟩ := forall_components_iff.mp h
    obtain ⟨e, he, hmarked⟩ := resolve_eq_ok_iff.mp hr
    rw [hself.array] at hmarked
    obtain rfl : r = e := hmarked
    cases he with
    | @bare b hb ha =>
      refine plain_ofBuiltin ⟨?_, ?_⟩ hn
      · rintro rfl
        exact hself.arguments (.inl hb) ha
      · rintro rfl
        exact hself.arguments (.inr hb) ha
    | @list a e hb ha he =>
      obtain rfl : arguments = [a] := ha
      have hmem := List.mem_singleton_self a
      exact .list (ih a hmem (harguments a hmem) e he) hn
    | @set a e hb ha he =>
      obtain rfl : arguments = [a] := ha
      have hmem := List.mem_singleton_self a
      exact .set (ih a hmem (harguments a hmem) e he) hn
    | named hb hentry hc hrs =>
      obtain ⟨b, hb'⟩ := hself.builtin
      exact absurd (hb'.symm.trans hb) (Option.some_ne_none b)

/-! ### What printed names mean -/

theorem writtenAs_bare (name : String) {b : Builtin} (hname : IsName name.toList)
    (hb : Builtin.ofName? name = some b) (n : Bool) :
    ((ofBuiltin b false n).mark false n).WrittenAs (name ++ Kotlin.nullMark n) := by
  refine ⟨⟨name, false, n, []⟩, .intro hname nofun, ?_, fun classes => ?_⟩
  · simp [text, Kotlin.nullMark]
  · exact resolve_of_builds (.bare hb rfl)

/-- The name is one of the built-in type of this kind. -/
def NamesKind (name : String) (k : ScalarKind) : Prop :=
  IsName name.toList ∧ (Builtin.ofName? name).bind Builtin.primitive? = some k

instance (name : String) (k : ScalarKind) : Decidable (NamesKind name k) :=
  inferInstanceAs (Decidable (_ ∧ _))

theorem writtenAs_primitive {name : String} {k : ScalarKind} (h : NamesKind name k) (n : Bool) :
    (ResolvedType.primitive k n).WrittenAs (name ++ Kotlin.nullMark n) := by
  obtain ⟨hname, hk⟩ := h
  obtain ⟨b, hb, hk⟩ := Option.bind_eq_some_iff.mp hk
  rw [← mark_of_primitive hk n]
  exact writtenAs_bare name hname hb n

theorem writtenAs_string (n : Bool) :
    (ResolvedType.string n).WrittenAs ("String" ++ Kotlin.nullMark n) := by
  have h := writtenAs_bare "String" (b := .string) (by decide) (by decide) n
  cases n <;> exact h

theorem text_argument (name : String) (a : TypeExpr) (n : Bool) :
    text ⟨name, false, n, [a]⟩ = name ++ "<" ++ a.text ++ ">" ++ Kotlin.nullMark n := by
  simp [text, Kotlin.nullMark, String.append_assoc]

theorem writtenAs_argument (name : String) {inner : String} {e full : ResolvedType} {n : Bool}
    (hname : IsName name.toList) (h : e.WrittenAs inner)
    (hfull : ∀ a classes, a.resolve classes = .ok e → Builds classes ⟨name, false, n, [a]⟩ full) :
    full.WrittenAs (name ++ "<" ++ inner ++ ">" ++ Kotlin.nullMark n) := by
  obtain ⟨a, hwritable, rfl, hresolve⟩ := h
  refine ⟨⟨name, false, n, [a]⟩, .intro hname ?_, text_argument name a n, fun classes => ?_⟩
  · exact List.forall_mem_singleton.mpr hwritable
  · exact resolve_of_builds (hfull a classes (hresolve classes))

theorem writtenAs_list (name : String) {inner : String} {e : ResolvedType}
    (hname : IsName name.toList) (hb : Builtin.ofName? name = some .list) (h : e.WrittenAs inner)
    (n : Bool) :
    (ResolvedType.list (some e) n).WrittenAs (name ++ "<" ++ inner ++ ">" ++ Kotlin.nullMark n) :=
  writtenAs_argument name hname h fun _ _ hr => .list hb rfl hr

theorem writtenAs_set (name : String) {inner : String} {e : ResolvedType}
    (hname : IsName name.toList) (hb : Builtin.ofName? name = some .set) (h : e.WrittenAs inner)
    (n : Bool) :
    (ResolvedType.set (some e) n).WrittenAs (name ++ "<" ++ inner ++ ">" ++ Kotlin.nullMark n) :=
  writtenAs_argument name hname h fun _ _ hr => .set hb rfl hr

end TypeExpr

namespace Kotlin

open ResolvedType TypeExpr

theorem namesKind_primitiveName {k : ScalarKind} (h : k.isPrimitive = true) :
    ∃ name, primitiveName k = .ok name ∧ NamesKind name k := by
  cases k <;> first | exact ⟨_, rfl, by decide⟩ | cases h

theorem writtenAs_typeName {P : Bool → Prop} {r : ResolvedType} (h : Plain P r) :
    ∃ name, typeName r = .ok name ∧ r.WrittenAs name := by
  induction h with
  | @primitive k n hk hn =>
    obtain ⟨name, hname, hkind⟩ := namesKind_primitiveName hk
    exact ⟨name ++ nullMark n, by simp [typeName, hname], writtenAs_primitive hkind n⟩
  | @string n hn => exact ⟨_, rfl, writtenAs_string n⟩
  | @list e n h hn ih =>
    obtain ⟨inner, hinner, hwritten⟩ := ih
    have hlist := writtenAs_list "List" (by decide) (by decide) hwritten n
    exact ⟨"List<" ++ inner ++ ">" ++ nullMark n, by simp [typeName, hinner], hlist⟩
  | @set e n h hn ih =>
    obtain ⟨inner, hinner, hwritten⟩ := ih
    have hset := writtenAs_set "Set" (by decide) (by decide) hwritten n
    exact ⟨"Set<" ++ inner ++ ">" ++ nullMark n, by simp [typeName, hinner], hset⟩

end Kotlin

namespace Java

open ResolvedType TypeExpr

theorem namesKind_boxedName {k : ScalarKind} (h : k.isPrimitive = true) :
    ∃ name, boxedName k = .ok name ∧ NamesKind name k := by
  cases k <;> first | exact ⟨_, rfl, by decide⟩ | cases h

theorem namesKind_name {k : ScalarKind} (h : k.isPrimitive = true) : NamesKind k.name k := by
  cases k <;> first | decide | cases h

theorem writtenAs_typeName {r : ResolvedType} (h : Plain (· = false) r) (boxed : Bool) :
    ∃ name, typeName boxed r = .ok name ∧ r.WrittenAs name := by
  induction h generalizing boxed with
  | @primitive k n hk hn =>
    subst hn
    obtain ⟨name, hname, hkind⟩ : ∃ name, typeName boxed (.primitive k false) = .ok name ∧
        NamesKind name k := by
      cases boxed with
      | false => exact ⟨k.name, rfl, namesKind_name hk⟩
      | true => exact namesKind_boxedName hk
    exact ⟨name, hname, by simpa [Kotlin.nullMark] using writtenAs_primitive hkind false⟩
  | @string n hn =>
    subst hn
    exact ⟨_, rfl, writtenAs_string false⟩
  | @list e n h hn ih =>
    subst hn
    obtain ⟨inner, hinner, hwritten⟩ := ih true
    have hlist := writtenAs_list "java.util.List" (by decide) (by decide) hwritten false
    refine ⟨"java.util.List<" ++ inner ++ ">", by simp [typeName, hinner], ?_⟩
    simpa [Kotlin.nullMark] using hlist
  | @set e n h hn ih =>
    subst hn
    obtain ⟨inner, hinner, hwritten⟩ := ih true
    have hset := writtenAs_set "java.util.Set" (by decide) (by decide) hwritten false
    refine ⟨"java.util.Set<" ++ inner ++ ">", by simp [typeName, hinner], ?_⟩
    simpa [Kotlin.nullMark] using hset

end Java

namespace TypeExpr

open ResolvedType

/-- What Kotlin prints for a type over built-in names is shorthand for that type. So is what Java
prints, boxed or not, if nothing in the type is nullable. -/
theorem parse_typeName {classes : ClassRegistry} {t : TypeExpr}
    (h : ∀ u ∈ t.components, u.Parameterized) {r : ResolvedType}
    (hr : t.resolve classes = .ok r) :
    (∃ name u, Kotlin.typeName r = .ok name ∧ parse name = .ok u ∧
      ∀ others, u.resolve others = .ok r) ∧
    ((∀ u ∈ t.components, u.nullable = false) → ∀ boxed, ∃ name u,
      Java.typeName boxed r = .ok name ∧ parse name = .ok u ∧
        ∀ others, u.resolve others = .ok r) := by
  constructor
  · have hplain : Plain (fun _ => True) r := plain_of_resolve t (fun u hu => ⟨h u hu, trivial⟩) r hr
    obtain ⟨name, hname, hwritten⟩ := Kotlin.writtenAs_typeName hplain
    obtain ⟨u, hparse, hresolve⟩ := hwritten.parse
    exact ⟨name, u, hname, hparse, hresolve⟩
  · intro hnull boxed
    have hplain : Plain (· = false) r :=
      plain_of_resolve t (fun u hu => ⟨h u hu, hnull u hu⟩) r hr
    obtain ⟨name, hname, hwritten⟩ := Java.writtenAs_typeName hplain boxed
    obtain ⟨u, hparse, hresolve⟩ := hwritten.parse
    exact ⟨name, u, hname, hparse, hresolve⟩

/-- Lists of sets under other spellings come back under the printed ones. -/
theorem parse_typeName_nested :
    (∃ u, parse "List<Set<Int?>?>" = .ok u ∧ ∀ classes, u.resolve classes =
      .ok (.list (some (.set (some (.primitive .int true)) true)) false)) ∧
    ∃ u, parse "java.util.Set<Character>" = .ok u ∧ ∀ classes, u.resolve classes =
      .ok (.set (some (.primitive .char false)) false) := by
  have hints : ∀ u ∈ components ⟨"LIST", false, false, [⟨"Kotlin.Collections.Set", false, true,
      [⟨"integer", false, true, []⟩]⟩]⟩, u.Parameterized := by decide
  have hchars : ∀ u ∈ components ⟨"set", false, false, [⟨"char", false, false, []⟩]⟩,
      u.Parameterized := by decide
  constructor
  · obtain ⟨name, u, hname, h⟩ := (@parse_typeName .empty _ hints _ rfl).1
    obtain rfl := Except.ok.inj hname
    exact ⟨u, h⟩
  · obtain ⟨name, u, hname, h⟩ := (@parse_typeName .empty _ hchars _ rfl).2 (by decide) true
    obtain rfl := Except.ok.inj hname
    exact ⟨u, h⟩

end TypeExpr

end BuildConstants
