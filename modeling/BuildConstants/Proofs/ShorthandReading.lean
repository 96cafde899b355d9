import Mathlib
import BuildConstants.Fault
import BuildConstants.Proofs.ShorthandGrammar

/-!
# Reading what the grammar derives

The reader accepts a text exactly if the grammar derives its tokens, and gives the tree of the
derivation. Both directions are by induction on the fuel, over types and lists of arguments at
once; fuel for each token is enough.
-/

namespace BuildConstants.TypeExpr

open Text

/-- What may stand behind a type inside a text: nothing, or a token that ends it. -/
def Follows (more : List Token) : Prop :=
  ∀ t ∈ more.head?, t = .comma ∨ t = .greater

theorem Spells.not_begins {ts : List Token} {cs : List Char} (h : Spells ts cs) {m : Char}
    (hts : ∀ t ∈ ts.head?, t.text.head? ≠ some m) (rest : List Char) :
    trimLeft cs ≠ m :: rest := by
  intro heq
  cases ts with
  | nil =>
    rw [h.trimLeft_eq_nil] at heq
    cases heq
  | cons t ts =>
    obtain ⟨rest', hrest, -, -⟩ := h.exists_rest
    obtain ⟨c, tail, htext, -⟩ := t.exists_text_eq
    have hhead := hts t rfl
    rw [htext] at hhead
    rw [heq, htext, List.cons_append] at hrest
    exact hhead (congrArg some (List.cons.inj hrest).1.symm)

theorem Follows.not_begins {more : List Token} (hm : Follows more) {cs : List Char}
    (h : Spells more cs) {m : Char} (hcomma : ',' ≠ m) (hgreater : '>' ≠ m) (rest : List Char) :
    trimLeft cs ≠ m :: rest := by
  refine h.not_begins (fun t ht => ?_) rest
  rcases hm t ht with rfl | rfl
  · simpa [Token.text] using hcomma
  · simpa [Token.text] using hgreater

/-! ### Suffixes -/

theorem readQuestion_of_spells {nullable : Bool} {array : Bool} {more : List Token} {cs : List Char}
    (hm : Follows more) (h : Spells (marks nullable array ++ more) cs) :
    ∃ rest, readQuestion cs = (nullable, rest) ∧ Spells (marks false array ++ more) rest := by
  cases nullable with
  | true =>
    obtain ⟨rest, hrest, -, h⟩ := h.exists_rest
    refine ⟨rest, ?_, h⟩
    simp [readQuestion, hrest, Token.text]
  | false =>
    refine ⟨trimLeft cs, ?_, h.trimmed⟩
    have hnone : ∀ rest, trimLeft cs ≠ '?' :: rest := by
      cases array with
      | true => exact h.not_begins (by simp [marks, Token.text])
      | false => exact hm.not_begins h (by decide) (by decide)
    rw [readQuestion]
    split
    · rename_i heq
      exact absurd heq (hnone _)
    · rfl

theorem readBrackets_of_spells {array : Bool} {more : List Token} {cs : List Char}
    (hm : Follows more) (h : Spells (marks false array ++ more) cs) :
    ∃ rest, readBrackets cs = .ok (array, rest) ∧ Spells more rest := by
  cases array with
  | true =>
    obtain ⟨inside, hopening, -, h⟩ := h.exists_rest
    obtain ⟨rest, hclosing, -, h⟩ := h.exists_rest
    refine ⟨rest, ?_, h⟩
    simp [readBrackets, hopening, hclosing, Token.text]
  | false =>
    refine ⟨trimLeft cs, ?_, h.trimmed⟩
    rw [readBrackets]
    split
    · rename_i heq
      exact absurd heq (hm.not_begins h (by decide) (by decide) _)
    · rfl

theorem readSuffixes_of_spells (name : String) (arguments : List TypeExpr) {nullable array : Bool}
    {more : List Token} {cs : List Char} (hm : Follows more)
    (h : Spells (marks nullable array ++ more) cs) :
    ∃ rest, readSuffixes name arguments cs = .ok (⟨name, array, nullable, arguments⟩, rest) ∧
      Spells more rest := by
  obtain ⟨afterQuestion, hquestion, h⟩ := readQuestion_of_spells hm h
  obtain ⟨rest, hbrackets, h⟩ := readBrackets_of_spells hm h
  exact ⟨rest, by simp [readSuffixes, hquestion, hbrackets], h⟩

theorem spells_of_readQuestion {ts : List Token} {cs : List Char}
    (h : Spells ts (readQuestion cs).2) :
    Spells ((if (readQuestion cs).1 then [.question] else []) ++ ts) cs := by
  rw [readQuestion] at h ⊢
  split at h
  · rename_i heq
    exact .of_trimLeft_eq heq trivial h
  · exact .of_trimLeft h

theorem spells_of_readBrackets {array : Bool} {ts : List Token} {cs rest : List Char}
    (hread : readBrackets cs = .ok (array, rest)) (h : Spells ts rest) :
    Spells (marks false array ++ ts) cs := by
  rw [readBrackets] at hread
  split at hread
  · rename_i hopening
    split at hread
    · rename_i hclosing
      cases hread
      exact .of_trimLeft_eq hopening trivial (.of_trimLeft_eq hclosing trivial h)
    · cases hread
  · cases hread
    exact .of_trimLeft h

theorem spells_of_readSuffixes {name : String} {arguments : List TypeExpr} {t : TypeExpr}
    {cs rest : List Char} (hread : readSuffixes name arguments cs = .ok (t, rest)) :
    ∃ nullable array, t = ⟨name, array, nullable, arguments⟩ ∧
      ∀ more, Spells more rest → Spells (marks nullable array ++ more) cs := by
  rw [readSuffixes] at hread
  split at hread
  · rename_i array rest' hbrackets
    cases hread
    refine ⟨_, array, rfl, fun more h => ?_⟩
    have hquestion := spells_of_readQuestion (spells_of_readBrackets hbrackets h)
    simpa [marks] using hquestion
  · cases hread

/-! ### Types -/

/-- Behind the name there are arguments or none. -/
theorem readType_of_name (fuel : Nat) {letters behind cs : List Char} (hname : IsName letters)
    (hcs : trimLeft cs = letters ++ behind) (hbehind : NoNameFirst behind) :
    readType (fuel + 1) cs = match trimLeft behind with
      | '<' :: rest => match readArguments fuel rest with
        | .ok (arguments, rest) => readSuffixes (String.ofList letters) arguments rest
        | .error stop => .error stop
      | rest => readSuffixes (String.ofList letters) [] rest := by
  have hnonempty : letters.isEmpty = false := by simpa using hname.1
  rw [readType]
  simp only [hcs, hname.takeWhile hbehind, hname.dropWhile hbehind, hnonempty]
  rfl

theorem readType_of_bare (fuel : Nat) {letters : List Char} (hname : IsName letters)
    {nullable array : Bool} {more : List Token} {cs : List Char} (hm : Follows more)
    (h : Spells (.name letters hname :: (marks nullable array ++ more)) cs) :
    ∃ rest, readType (fuel + 1) cs = .ok (⟨String.ofList letters, array, nullable, []⟩, rest) ∧
      Spells more rest := by
  obtain ⟨behind, hcs, hends, h⟩ := h.exists_rest
  obtain ⟨rest, hsuffixes, hrest⟩ := readSuffixes_of_spells (String.ofList letters) [] hm h.trimmed
  refine ⟨rest, ?_, hrest⟩
  have hless : ∀ rest, trimLeft behind ≠ '<' :: rest := by
    cases nullable with
    | true => exact h.not_begins (by simp [marks, Token.text])
    | false =>
      cases array with
      | true => exact h.not_begins (by simp [marks, Token.text])
      | false => exact hm.not_begins h (by decide) (by decide)
  rw [readType_of_name fuel hname hcs hends]
  split
  · rename_i heq
    exact absurd heq (hless _)
  · exact hsuffixes

theorem readType_of_generic {fuel : Nat} {letters : List Char} (hname : IsName letters)
    {arguments : List TypeExpr} {ts : List Token} {nullable array : Bool} {more : List Token}
    {cs : List Char} (hm : Follows more)
    (harguments : ∀ cs, Spells (ts ++ .greater :: (marks nullable array ++ more)) cs →
      ∃ rest, readArguments fuel cs = .ok (arguments, rest) ∧
        Spells (marks nullable array ++ more) rest)
    (h : Spells (.name letters hname :: .less :: (ts ++ .greater :: (marks nullable array ++ more)))
      cs) :
    ∃ rest, readType (fuel + 1) cs =
        .ok (⟨String.ofList letters, array, nullable, arguments⟩, rest) ∧ Spells more rest := by
  obtain ⟨behind, hcs, hends, h⟩ := h.exists_rest
  obtain ⟨inside, hless, -, h⟩ := h.exists_rest
  obtain ⟨afterArguments, hread, h⟩ := harguments inside h
  obtain ⟨rest, hsuffixes, hrest⟩ :=
    readSuffixes_of_spells (String.ofList letters) arguments hm h
  refine ⟨rest, ?_, hrest⟩
  rw [readType_of_name fuel hname hcs hends, hless]
  simp [Token.text, hread, hsuffixes]

/-- Fuel for each token is enough to read derived tokens. -/
theorem read_of_derives (fuel : Nat) :
    (∀ ts t more cs, Derives ts t → ts.length ≤ fuel → Follows more → Spells (ts ++ more) cs →
      ∃ rest, readType fuel cs = .ok (t, rest) ∧ Spells more rest) ∧
    ∀ ts arguments more cs, DerivesAll ts arguments → ts.length < fuel →
      Spells (ts ++ .greater :: more) cs →
      ∃ rest, readArguments fuel cs = .ok (arguments, rest) ∧ Spells more rest := by
  induction fuel with
  | zero =>
    constructor
    · intro ts t more cs hd hfuel
      cases hd <;> cases hfuel
    · intro ts arguments more cs hd hfuel
      cases hfuel
  | succ fuel ih =>
    obtain ⟨ihtype, iharguments⟩ := ih
    constructor
    · intro ts t more cs hd hfuel hm h
      cases hd with
      | bare hname nullable array => exact readType_of_bare fuel hname hm h
      | @generic letters hname us arguments hall nullable array =>
        have hus : us.length < fuel := by
          simp only [List.length_cons, List.length_append] at hfuel
          omega
        refine readType_of_generic hname hm (fun cs => iharguments us arguments _ cs hall hus) ?_
        simpa using h
    · intro ts arguments more cs hd hfuel h
      cases hd with
      | @single _ t hd =>
        have hgreater : Follows (.greater :: more) := by simp [Follows]
        obtain ⟨behind, hread, h⟩ := ihtype ts t _ cs hd (by omega) hgreater h
        obtain ⟨rest, hrest, -, h⟩ := h.exists_rest
        refine ⟨rest, ?_, h⟩
        simp [readArguments, hread, hrest, Token.text]
      | @cons us vs t others hd hothers =>
        simp only [List.length_append, List.length_cons] at hfuel
        have hcomma : Follows (.comma :: (vs ++ .greater :: more)) := by simp [Follows]
        have h : Spells (us ++ .comma :: (vs ++ .greater :: more)) cs := by simpa using h
        obtain ⟨behind, hread, h⟩ := ihtype us t _ cs hd (by omega) hcomma h
        obtain ⟨next, hnext, -, h⟩ := h.exists_rest
        obtain ⟨rest, hothers, h⟩ := iharguments vs others more next hothers (by omega) h
        refine ⟨rest, ?_, h⟩
        simp [readArguments, hread, hnext, hothers, Token.text]

/-- What is read is derived from the tokens of the text in front of the rest. -/
theorem derives_of_read (fuel : Nat) :
    (∀ cs t rest, readType fuel cs = .ok (t, rest) →
      ∃ ts, Derives ts t ∧ ∀ more, Spells more rest → Spells (ts ++ more) cs) ∧
    ∀ cs arguments rest, readArguments fuel cs = .ok (arguments, rest) →
      ∃ ts, DerivesAll ts arguments ∧
        ∀ more, Spells more rest → Spells (ts ++ .greater :: more) cs := by
  induction fuel with
  | zero =>
    constructor
    · intro cs t rest hread
      cases hread
    · intro cs arguments rest hread
      cases hread
  | succ fuel ih =>
    obtain ⟨ihtype, iharguments⟩ := ih
    constructor
    · intro cs t rest hread
      have hname : IsName ((trimLeft cs).takeWhile isNameChar) := by
        constructor
        · intro hempty
          simp [readType, hempty] at hread
        · exact List.all_eq_true.mp List.all_takeWhile
      have hcs := (List.takeWhile_append_dropWhile (p := isNameChar) (l := trimLeft cs)).symm
      have hends := noNameFirst_dropWhile (trimLeft cs)
      rw [readType_of_name fuel hname hcs hends] at hread
      split at hread
      · rename_i inside hless
        split at hread
        · rename_i arguments afterArguments harguments
          obtain ⟨ts, hd, hspells⟩ := iharguments _ _ _ harguments
          obtain ⟨nullable, array, rfl, hsuffixes⟩ := spells_of_readSuffixes hread
          refine ⟨_, .generic hname hd nullable array, fun more h => ?_⟩
          have hinside := hspells _ (hsuffixes more h)
          have hbehind := Spells.of_trimLeft_eq (t := .less) hless trivial hinside
          simpa using Spells.of_trimLeft_eq (t := .name _ hname) hcs hends hbehind
        · cases hread
      · obtain ⟨nullable, array, rfl, hsuffixes⟩ := spells_of_readSuffixes hread
        refine ⟨_, .bare hname nullable array, fun more h => ?_⟩
        have hbehind := Spells.of_trimLeft (hsuffixes more h)
        exact Spells.of_trimLeft_eq (t := .name _ hname) hcs hends hbehind
    · intro cs arguments rest hread
      rw [readArguments] at hread
      split at hread
      · cases hread
      · rename_i t behind htype
        obtain ⟨ts, hd, hspells⟩ := ihtype _ _ _ htype
        split at hread
        · rename_i next hcomma
          split at hread
          · rename_i others rest' hothers
            cases hread
            obtain ⟨us, hds, hrest⟩ := iharguments _ _ _ hothers
            refine ⟨_, .cons hd hds, fun more h => ?_⟩
            have hbehind := Spells.of_trimLeft_eq (t := .comma) hcomma trivial (hrest more h)
            simpa using hspells _ hbehind
          · cases hread
        · rename_i next hgreater
          cases hread
          refine ⟨ts, .single hd, fun more h => ?_⟩
          exact hspells _ (.of_trimLeft_eq (t := .greater) hgreater trivial h)
        · cases hread

/-- A text is a type exactly if the grammar derives its tokens. -/
theorem readWhole_eq_ok_iff {cs : List Char} {t : TypeExpr} :
    readWhole cs = .ok t ↔ ∃ ts, Spells ts cs ∧ Derives ts t := by
  constructor
  · intro h
    rw [readWhole] at h
    split at h
    · cases h
    · rename_i t' rest hread
      split at h
      · rename_i hrest
        cases h
        obtain ⟨ts, hd, hspells⟩ := (derives_of_read _).1 _ _ _ hread
        have hend : Spells [] rest := .of_trimLeft (hrest ▸ .blanks (by simp))
        exact ⟨ts, by simpa using hspells [] hend, hd⟩
      · cases h
  · rintro ⟨ts, hspells, hd⟩
    have hfuel : ts.length ≤ 2 * cs.length + 1 := by
      have hle := hspells.length_le
      omega
    obtain ⟨rest, hread, hend⟩ := (read_of_derives _).1 ts t [] cs hd hfuel (by simp [Follows])
      (by simpa using hspells)
    simp [readWhole, hread, hend.trimLeft_eq_nil]

theorem parse_eq_ok_iff {s : String} {t : TypeExpr} :
    parse s = .ok t ↔ ∃ ts, Spells ts s.toList ∧ Derives ts t := by
  rw [← readWhole_eq_ok_iff, parse]
  split
  · rename_i heq
    simp [heq]
  · rename_i heq
    simp [heq]

/-- The reader accepts exactly the texts that the grammar derives. A text has at most one
derivation, its tree is what the reader gives, and all other texts are refused as bad values. -/
theorem parse_accepts_grammar (s : String) :
    (∀ t, parse s = .ok t ↔ ∃ ts, Spells ts s.toList ∧ Derives ts t) ∧
    (∀ ts t us u, Spells ts s.toList → Derives ts t → Spells us s.toList → Derives us u →
      ts = us ∧ t = u) ∧
    ((∃ e, parse s = .error e ∧ (Fault.shorthand e).family = .value) ↔
      ¬ ∃ ts t, Spells ts s.toList ∧ Derives ts t) := by
  refine ⟨fun t => parse_eq_ok_iff, ?_, ?_⟩
  · intro ts t us u hts ht hus hu
    have hread : parse s = .ok t := parse_eq_ok_iff.mpr ⟨ts, hts, ht⟩
    have hread' : parse s = .ok u := parse_eq_ok_iff.mpr ⟨us, hus, hu⟩
    exact ⟨hts.tokens_unique hus, Except.ok.inj (hread.symm.trans hread')⟩
  · constructor
    · rintro ⟨e, he, -⟩ ⟨ts, t, hts, ht⟩
      have hread : parse s = .ok t := parse_eq_ok_iff.mpr ⟨ts, hts, ht⟩
      rw [he] at hread
      cases hread
    · intro hnone
      cases hparse : parse s with
      | error e => exact ⟨e, rfl, rfl⟩
      | ok t =>
        obtain ⟨ts, hts, ht⟩ := parse_eq_ok_iff.mp hparse
        exact absurd ⟨ts, t, hts, ht⟩ hnone

theorem parse_accepts_grammar_spaced :
    (∃ ts, Spells ts " Map<\tList < Int?[ ] > ,$s. >? ".toList ∧
      Derives ts ⟨"Map", false, true, [⟨"List", false, false, [⟨"Int", true, true, []⟩]⟩,
        ⟨"$s.", false, false, []⟩]⟩ ∧
      ∀ us u, Spells us " Map<\tList < Int?[ ] > ,$s. >? ".toList → Derives us u → ts = us) ∧
    ¬ ∃ ts t, Spells ts "Int[]?".toList ∧ Derives ts t := by
  have hspaced : parse " Map<\tList < Int?[ ] > ,$s. >? " = .ok ⟨"Map", false, true,
      [⟨"List", false, false, [⟨"Int", true, true, []⟩]⟩, ⟨"$s.", false, false, []⟩]⟩ := by cbv
  have hswapped : parse "Int[]?" = .error ⟨"Int[]?", 5, .unexpected '?'⟩ := by cbv
  constructor
  · obtain ⟨hread, hunique, -⟩ := parse_accepts_grammar " Map<\tList < Int?[ ] > ,$s. >? "
    obtain ⟨ts, hts, ht⟩ := (hread _).mp hspaced
    exact ⟨ts, hts, ht, fun us u hus hu => (hunique ts _ us u hts ht hus hu).1⟩
  · exact (parse_accepts_grammar "Int[]?").2.2.mp ⟨_, hswapped, rfl⟩

end BuildConstants.TypeExpr
