import Mathlib.Data.List.Nodup
import BuildConstants.Schema.Reader

/-!
# Members of enumerations

The names and the capital names of an enumeration tell its members apart. A text is looked up as a
name first, in small letters, and as a capital name where no member has that name.
-/

namespace BuildConstants

open Text

namespace Member

variable {e : Enumeration} {m m' : Member} {s : String}

theorem eq_of_name (h : m.enumeration = m'.enumeration) (hname : m.name = m'.name) : m = m' := by
  obtain ⟨e, capitalName, name, hmem⟩ := m
  obtain ⟨e', capitalName', name', hmem'⟩ := m'
  obtain rfl : e = e' := h
  obtain rfl : name = name' := hname
  have hentry := List.inj_on_of_nodup_map e.values_nodup hmem hmem' rfl
  obtain rfl := (Prod.mk.inj hentry).1
  rfl

theorem eq_of_capitalName (h : m.enumeration = m'.enumeration)
    (hname : m.capitalName = m'.capitalName) : m = m' := by
  obtain ⟨e, capitalName, name, hmem⟩ := m
  obtain ⟨e', capitalName', name', hmem'⟩ := m'
  obtain rfl : e = e' := h
  obtain rfl : capitalName = capitalName' := hname
  have hentry := List.inj_on_of_nodup_map e.names_nodup hmem hmem' rfl
  obtain rfl := (Prod.mk.inj hentry).2
  rfl

/-- Looking for a part that tells members apart finds the one member that has it. -/
theorem find?_eq_some_iff {part : Member → String}
    (hpart : ∀ {m m' : Member}, m.enumeration = m'.enumeration → part m = part m' → m = m') :
    e.members.find? (part · == s) = some m ↔ m.enumeration = e ∧ part m = s := by
  constructor
  · intro h
    exact ⟨Enumeration.mem_members_iff.mp (List.mem_of_find?_eq_some h),
      by simpa using List.find?_some h⟩
  · rintro ⟨rfl, rfl⟩
    cases hfound : m.enumeration.members.find? (part · == part m) with
    | none =>
      have hmem : m ∈ m.enumeration.members := Enumeration.mem_members_iff.mpr rfl
      simpa using List.find?_eq_none.mp hfound m hmem
    | some m' =>
      have hmem := Enumeration.mem_members_iff.mp (List.mem_of_find?_eq_some hfound)
      have hsame : part m' = part m := by simpa using List.find?_some hfound
      rw [hpart hmem hsame]

theorem ofName?_eq_some_iff : ofName? e s = some m ↔ m.enumeration = e ∧ m.name = s :=
  find?_eq_some_iff eq_of_name

theorem ofCapitalName?_eq_some_iff :
    ofCapitalName? e s = some m ↔ m.enumeration = e ∧ m.capitalName = s :=
  find?_eq_some_iff eq_of_capitalName

end Member

namespace Reader

variable {e : Enumeration} {m : Member} {s : String}

/-- A name goes before a capital name. -/
theorem memberOfText?_eq_some_iff : memberOfText? e s = some m ↔ m.enumeration = e ∧
    (m.name = lowercase s ∨
      (∀ m' : Member, m'.enumeration = e → m'.name ≠ lowercase s) ∧ m.capitalName = s) := by
  rw [memberOfText?, Option.or_eq_some_iff, Member.ofName?_eq_some_iff,
    Member.ofCapitalName?_eq_some_iff, Option.eq_none_iff_forall_ne_some]
  simp only [ne_eq, Member.ofName?_eq_some_iff, not_and]
  constructor
  · rintro (⟨hm, hname⟩ | ⟨hnone, hm, hname⟩)
    · exact ⟨hm, .inl hname⟩
    · exact ⟨hm, .inr ⟨hnone, hname⟩⟩
  · rintro ⟨hm, hname | ⟨hnone, hname⟩⟩
    · exact .inl ⟨hm, hname⟩
    · exact .inr ⟨hnone, hm, hname⟩

end Reader

end BuildConstants
