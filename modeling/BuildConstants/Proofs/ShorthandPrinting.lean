import BuildConstants.Proofs.ShorthandReading

/-!
# Printing and reading back

The printed shorthand of a type spells the tokens that derive it, so it is read back as that type.
Types with writable names are the derivable ones. What is read off a text depends on its characters
other than blanks alone.
-/

namespace BuildConstants.TypeExpr

open Text

/-- Every name in the type is one that the shorthand can spell. -/
inductive Writable : TypeExpr → Prop
  | intro {t : TypeExpr} (hname : IsName t.name.toList) (h : ∀ a ∈ t.arguments, Writable a) :
      Writable t

theorem exists_derivesAll {a : TypeExpr} {rest : List TypeExpr}
    (h : ∀ t ∈ a :: rest, ∃ ts, Derives ts t) : ∃ ts, DerivesAll ts (a :: rest) := by
  induction rest generalizing a with
  | nil =>
    obtain ⟨ts, hts⟩ := h a List.mem_cons_self
    exact ⟨ts, .single hts⟩
  | cons b rest ih =>
    obtain ⟨ts, hts⟩ := h a List.mem_cons_self
    obtain ⟨us, hus⟩ := ih fun t ht => h t (List.mem_cons_of_mem a ht)
    exact ⟨_, .cons hts hus⟩

theorem Writable.exists_derives {t : TypeExpr} (h : t.Writable) : ∃ ts, Derives ts t := by
  induction h with
  | @intro t hname h ih =>
    obtain ⟨name, array, nullable, arguments⟩ := t
    rw [← String.ofList_toList (s := name)]
    cases arguments with
    | nil => exact ⟨_, .bare hname nullable array⟩
    | cons a rest =>
      obtain ⟨ts, hts⟩ := exists_derivesAll ih
      exact ⟨_, .generic hname hts nullable array⟩

mutual

theorem Derives.writable : ∀ {ts : List Token} {t : TypeExpr}, Derives ts t → t.Writable
  | _, _, .bare hname nullable array => .intro (by simpa using hname) (by simp)
  | _, _, .generic hname h nullable array => .intro (by simpa using hname) h.writable

theorem DerivesAll.writable : ∀ {ts : List Token} {as : List TypeExpr}, DerivesAll ts as →
    ∀ a ∈ as, a.Writable
  | _, _, .single h, a, ha => by
    obtain rfl := List.mem_singleton.mp ha
    exact h.writable
  | _, _, .cons h hrest, a, ha => by
    rcases List.mem_cons.mp ha with rfl | ha
    · exact h.writable
    · exact hrest.writable a ha

end

theorem DerivesAll.exists_cons {ts : List Token} {as : List TypeExpr} (h : DerivesAll ts as) :
    ∃ a rest, as = a :: rest := by
  cases h with
  | single h => exact ⟨_, [], rfl⟩
  | cons h hrest => exact ⟨_, _, rfl⟩

theorem text_marks (nullable array : Bool) : (marks nullable array).flatMap Token.text =
    (if nullable then "?" else "").toList ++ (if array then "[]" else "").toList := by
  cases nullable <;> cases array <;> rfl

mutual

/-- The printed shorthand spells the tokens of every derivation of the type. -/
theorem Derives.adds_text : ∀ {ts : List Token} {t : TypeExpr}, Derives ts t →
    Adds ts t.text.toList
  | _, _, .bare hname nullable array => by
    have hbare := adds_bare hname nullable array
    rw [text_marks] at hbare
    simpa [text] using hbare
  | _, _, .generic hname h nullable array => by
    obtain ⟨a, rest, rfl⟩ := h.exists_cons
    have hgeneric := adds_generic hname h.adds_text nullable array
    rw [text_marks] at hgeneric
    simpa [text] using hgeneric

theorem DerivesAll.adds_text : ∀ {ts : List Token} {as : List TypeExpr}, DerivesAll ts as →
    Adds ts (String.intercalate ", " (as.map text)).toList
  | _, _, .single h => by simpa using h.adds_text
  | _, _, .cons h hrest => by
    obtain ⟨a, rest, rfl⟩ := hrest.exists_cons
    have hall := adds_cons h.adds_text hrest.adds_text [' ']
      (List.forall_mem_singleton.mpr (by decide))
    simpa [String.intercalate_cons_cons] using hall

end

theorem parse_text_of_derives {ts : List Token} {t : TypeExpr} (h : Derives ts t) :
    parse t.text = .ok t :=
  parse_eq_ok_iff.mpr ⟨ts, h.adds_text.spells, h⟩

theorem parse_withoutBlanks {s : String} {t : TypeExpr} (h : parse s = .ok t) :
    parse (String.ofList (withoutBlanks s.toList)) = .ok t := by
  obtain ⟨ts, hspells, hd⟩ := parse_eq_ok_iff.mp h
  refine parse_eq_ok_iff.mpr ⟨ts, ?_, hd⟩
  rw [String.toList_ofList, hspells.withoutBlanks_eq]
  exact hd.adds_solid.spells

/-- Types with writable names are read back from their printed shorthand. Whatever is read off a
text is printed with the characters of that text other than blanks, and reading ignores blanks. -/
theorem parse_text_canonical :
    (∀ t : TypeExpr, t.Writable → parse t.text = .ok t) ∧
    ∀ (s : String) (t : TypeExpr), parse s = .ok t →
      parse t.text = .ok t ∧ withoutBlanks t.text.toList = withoutBlanks s.toList ∧
      ∀ (s' : String) (t' : TypeExpr), parse s' = .ok t' →
        withoutBlanks s'.toList = withoutBlanks s.toList → t'.text = t.text := by
  constructor
  · intro t h
    obtain ⟨ts, hd⟩ := h.exists_derives
    exact parse_text_of_derives hd
  · intro s t h
    obtain ⟨ts, hspells, hd⟩ := parse_eq_ok_iff.mp h
    refine ⟨parse_text_of_derives hd, ?_, ?_⟩
    · rw [hd.adds_text.spells.withoutBlanks_eq, hspells.withoutBlanks_eq]
    · intro s' t' h' hblanks
      have hread := parse_withoutBlanks h'
      rw [hblanks, parse_withoutBlanks h] at hread
      rw [Except.ok.inj hread]

theorem parse_text_canonical_nested :
    (Writable ⟨"kotlin.Pair", true, true, [⟨"List", false, false, [⟨"Int", true, true, []⟩]⟩,
        ⟨"$s", false, true, []⟩]⟩ ∧
      parse "kotlin.Pair<List<Int?[]>, $s?>?[]" = .ok ⟨"kotlin.Pair", true, true,
        [⟨"List", false, false, [⟨"Int", true, true, []⟩]⟩, ⟨"$s", false, true, []⟩]⟩) ∧
    parse " List< Int >" = .ok ⟨"List", false, false, [⟨"Int", false, false, []⟩]⟩ ∧
    parse "List<Int>" = .ok ⟨"List", false, false, [⟨"Int", false, false, []⟩]⟩ := by
  have hbare (name : String) (hname : IsName name.toList) (array nullable : Bool) :
      Writable ⟨name, array, nullable, []⟩ := .intro hname (by simp)
  have hlist : Writable ⟨"List", false, false, [⟨"Int", true, true, []⟩]⟩ :=
    .intro (by decide) (by simpa using hbare "Int" (by decide) true true)
  have hpair : Writable ⟨"kotlin.Pair", true, true,
      [⟨"List", false, false, [⟨"Int", true, true, []⟩]⟩, ⟨"$s", false, true, []⟩]⟩ :=
    .intro (by decide) (by simpa using ⟨hlist, hbare "$s" (by decide) false true⟩)
  have hpairText : text ⟨"kotlin.Pair", true, true,
      [⟨"List", false, false, [⟨"Int", true, true, []⟩]⟩, ⟨"$s", false, true, []⟩]⟩ =
      "kotlin.Pair<List<Int?[]>, $s?>?[]" := by cbv
  have hpairRead := parse_text_canonical.1 _ hpair
  rw [hpairText] at hpairRead
  have hspaced : parse " List< Int >" =
      .ok ⟨"List", false, false, [⟨"Int", false, false, []⟩]⟩ := by cbv
  have htext : text ⟨"List", false, false, [⟨"Int", false, false, []⟩]⟩ = "List<Int>" := by cbv
  have hread := (parse_text_canonical.2 " List< Int >" _ hspaced).1
  rw [htext] at hread
  exact ⟨⟨hpair, hpairRead⟩, hspaced, hread⟩

end BuildConstants.TypeExpr
