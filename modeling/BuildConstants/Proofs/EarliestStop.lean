import BuildConstants.Proofs.ShorthandSteps

/-!
# Where reading a type stops

A text that is no type is refused at the earliest place possible. What stands in front of that
place can be completed to a type: each step takes tokens of a derivation, and a step that stops
lacks an ending only. What goes on with the character at that place cannot: a step has no use for
what stands behind it, so any such text stops the reader there as well.
-/

namespace BuildConstants.TypeExpr

open Text Step

/-! ### Fuel -/

section Fuel

variable {α β : Type}

theorem bind_congr_at {r r' : Step α} {f f' : α → Step β} {cs : List Char} (h : r cs = r' cs)
    (hf : ∀ a rest, r cs = .ok (a, rest) → f a rest = f' a rest) :
    (r >>= f) cs = (r' >>= f') cs := by
  show (r cs >>= _) = (r' cs >>= _)
  rw [← h]
  cases hread : r cs with
  | error stop => rfl
  | ok result => exact hf _ _ hread

theorem Local.length_le {r : Step α} (hr : Local r) {cs rest : List Char} {a : α}
    (h : r cs = .ok (a, rest)) : rest.length ≤ cs.length := by
  have hsuffix := hr.suffix cs
  rw [h] at hsuffix
  exact hsuffix.length_le

theorem length_lt_of_letters {cs rest name : List Char} (h : letters cs = .ok (name, rest)) :
    rest.length < cs.length := by
  rw [letters] at h
  split at h
  · cases h
  · rename_i hname
    cases h
    have hsplit := List.takeWhile_append_dropWhile (p := isNameChar) (l := cs)
    have hwhole := congrArg List.length hsplit
    have hpos := List.length_pos_iff.mpr (mt List.isEmpty_iff.mpr hname)
    rw [List.length_append] at hwhole
    omega

theorem length_lt_of_mark {m : Char} {cs rest : List Char} (h : mark m cs = .ok (true, rest)) :
    rest.length < cs.length := by
  have hblanks := (List.dropWhile_suffix isBlank (l := cs)).length_le
  rw [mark_eq, trimLeft] at h
  cases hcs : cs.dropWhile isBlank with
  | nil =>
    rw [hcs] at h
    cases h
  | cons c rest' =>
    rw [hcs, symbol] at h
    rw [hcs, List.length_cons] at hblanks
    split at h
    · cases h
      omega
    · cases h

end Fuel

/-- Fuel for every character is enough, and more of it changes nothing. -/
theorem read_of_fuel (fuel : Nat) :
    (∀ cs more, 2 * cs.length + 1 ≤ fuel → 2 * cs.length + 1 ≤ more →
      readType fuel cs = readType more cs) ∧
    ∀ cs more, 2 * cs.length + 2 ≤ fuel → 2 * cs.length + 2 ≤ more →
      readArguments fuel cs = readArguments more cs := by
  induction fuel with
  | zero =>
    constructor
    · intro cs more hfuel
      omega
    · intro cs more hfuel
      omega
  | succ fuel ih =>
    obtain ⟨ihtype, iharguments⟩ := ih
    constructor
    · intro cs more hfuel hmore
      obtain ⟨more, rfl⟩ : ∃ n, more = n + 1 := ⟨more - 1, by omega⟩
      rw [readType_succ, readType_succ]
      refine bind_congr_at rfl fun _ trimmed htrimmed => ?_
      refine bind_congr_at rfl fun name behind hname => ?_
      refine bind_congr_at rfl fun found inside hless => ?_
      have hcs := Local.blanks.length_le htrimmed
      have hbehind := length_lt_of_letters hname
      cases found with
      | false => rfl
      | true =>
        have hinside := length_lt_of_mark hless
        exact bind_congr_at (iharguments inside more (by omega) (by omega)) fun _ _ _ => rfl
    · intro cs more hfuel hmore
      obtain ⟨more, rfl⟩ : ∃ n, more = n + 1 := ⟨more - 1, by omega⟩
      rw [readArguments_succ, readArguments_succ]
      refine bind_congr_at (ihtype cs more (by omega) (by omega)) fun t behind htype => ?_
      refine bind_congr_at rfl fun found further hcomma => ?_
      have hbehind := (Local.readers fuel).1.length_le htype
      cases found with
      | false => rfl
      | true =>
        have hfurther := length_lt_of_mark hcomma
        exact bind_congr_at (iharguments further more (by omega) (by omega)) fun _ _ _ => rfl

theorem readToEnd_of_fuel {fuel more : Nat} {cs : List Char} (hfuel : 2 * cs.length + 1 ≤ fuel)
    (hmore : 2 * cs.length + 1 ≤ more) : readToEnd fuel cs = readToEnd more cs :=
  bind_congr_at ((read_of_fuel fuel).1 cs more hfuel hmore) fun _ _ _ => rfl

/-! ### Completing what was taken -/

section Completion

variable {α β : Type} {P : β → List Char → Prop} {Q : α → List Char → Prop} {r : Step α}
  {f : α → Step β}

/-- What was taken writes the value; where reading stopped, some ending makes it write one. -/
inductive Completes (P : α → List Char → Prop) : List Char → Except Stop (α × List Char) → Prop
  | read {taken rest : List Char} {a : α} (h : P a taken) :
      Completes P (taken ++ rest) (.ok (a, rest))
  | stopped {taken ending rest : List Char} {a : α} {problem : ShorthandProblem}
      (h : P a (taken ++ ending)) : Completes P (taken ++ rest) (.error ⟨problem, rest⟩)

def Writes (P : α → List Char → Prop) (r : Step α) : Prop :=
  ∀ cs, Completes P cs (r cs)

/-- The step never stops, and what it takes is as said. -/
def Takes (P : α → List Char → Prop) (r : Step α) : Prop :=
  ∀ cs, ∃ a taken rest, cs = taken ++ rest ∧ r cs = .ok (a, rest) ∧ P a taken

namespace Writes

theorem pure {a : β} (h : P a []) : Writes P (pure a : Step β) :=
  fun cs => @Completes.read β P [] cs a h

theorem stop {a : β} (ending : List Char) (h : P a ending) (problem : ShorthandProblem) :
    Writes P (stop problem : Step β) :=
  fun cs => @Completes.stopped β P [] ending cs a problem h

theorem imp {P' : β → List Char → Prop} {r : Step β} (hr : Writes P r)
    (h : ∀ b taken, P b taken → P' b taken) : Writes P' r := by
  intro cs
  have hcs := hr cs
  generalize r cs = x at hcs
  cases hcs with
  | read hp => exact .read (h _ _ hp)
  | stopped hp => exact .stopped (h _ _ hp)

theorem behind {r : Step β} {taken : List Char} (hr : Writes (fun b back => P b (taken ++ back)) r)
    (rest : List Char) : Completes P (taken ++ rest) (r rest) := by
  have hrest := hr rest
  generalize r rest = x at hrest
  cases hrest with
  | @read back rest b hp =>
    rw [← List.append_assoc]
    exact .read hp
  | @stopped back ending rest b problem hp =>
    rw [← List.append_assoc]
    have hwhole : P b (taken ++ back ++ ending) := by rwa [List.append_assoc]
    exact .stopped hwhole

/-- What follows a step is judged with what the step took in front. Where the step stops, its own
ending and one more complete the text. -/
theorem bind (hr : Writes Q r)
    (hf : ∀ a taken, Q a taken → Writes (fun b back => P b (taken ++ back)) (f a))
    (hall : ∀ a taken, Q a taken → ∃ b back, P b (taken ++ back)) : Writes P (r >>= f) := by
  intro cs
  have hcs := hr cs
  show Completes P cs (r cs >>= _)
  generalize r cs = x at hcs
  cases hcs with
  | @read taken rest a hq => exact (hf a taken hq).behind rest
  | @stopped taken ending rest a problem hq =>
    obtain ⟨b, back, hp⟩ := hall a _ hq
    have hwhole : P b (taken ++ (ending ++ back)) := by rwa [← List.append_assoc]
    exact .stopped hwhole

end Writes

theorem Takes.bind (hr : Takes Q r)
    (hf : ∀ a taken, Q a taken → Writes (fun b back => P b (taken ++ back)) (f a)) :
    Writes P (r >>= f) := by
  intro cs
  obtain ⟨a, taken, rest, rfl, hread, hq⟩ := hr cs
  show Completes P _ (r _ >>= _)
  rw [hread]
  exact (hf a taken hq).behind rest

end Completion

/-! ### Tokens of what was taken -/

/-- A token other than a name. -/
def Token.IsMark (t : Token) : Prop :=
  ∀ rest, t.EndsBefore rest

theorem noNameFirst_blanks {bs : List Char} (hb : ∀ c ∈ bs, isBlank c = true) : NoNameFirst bs :=
  fun c hc => isNameChar_of_isBlank (hb c (List.mem_of_mem_head? hc))

theorem NoNameFirst.append {ds cs : List Char} (hds : NoNameFirst ds) (hcs : NoNameFirst cs) :
    NoNameFirst (ds ++ cs) := by
  cases ds with
  | nil => exact hcs
  | cons d ds => exact hds

theorem Spells.noNameFirst {ts : List Token} {cs : List Char} (h : Spells ts cs)
    (hts : ∀ t ∈ ts.head?, t.IsMark) : NoNameFirst cs := by
  cases h with
  | blanks hb => exact noNameFirst_blanks hb
  | @token bs hb t ts cs ht h =>
    refine (noNameFirst_blanks hb).append ?_
    have hmark := hts t rfl
    cases t with
    | name letters hname => exact absurd (hmark ['a'] 'a' rfl) (by decide)
    | less | comma | greater | question | opening | closing =>
      exact noNameFirst_cons (by decide) cs

theorem adds_nil : Adds [] [] :=
  fun _ _ _ h => h

theorem adds_name {name : List Char} (hname : IsName name) : Adds [.name name hname] name :=
  fun _ _ hcs h => .cons hcs h

namespace Adds

variable {ts us : List Token} {ds es bs : List Char}

theorem blanks (h : Adds us es) (hb : ∀ c ∈ bs, isBlank c = true) : Adds us (bs ++ es) := by
  intro more cs hcs hmore
  rw [List.append_assoc]
  exact .of_blanks_append hb (h more cs hcs hmore)

/-- A mark goes in front of anything. -/
theorem mark {t : Token} (h : Adds us es) (ht : t.IsMark) : Adds (t :: us) (t.text ++ es) := by
  intro more cs hcs hmore
  rw [List.append_assoc]
  exact .cons (ht _) (h more cs hcs hmore)

theorem append (h : Adds ts ds) (hus : Adds us es) (hmark : ∀ t ∈ us.head?, t.IsMark) :
    Adds (ts ++ us) (ds ++ es) := by
  intro more cs hcs hmore
  have hrest := h _ _ ((hus.spells.noNameFirst hmark).append hcs) (hus more cs hcs hmore)
  simpa using hrest

end Adds

theorem isMark_of_mem_marks {nullable array : Bool} :
    ∀ t ∈ (marks nullable array).head?, t.IsMark := by
  cases nullable with
  | true => simp [marks, Token.IsMark, Token.EndsBefore]
  | false => cases array <;> simp [marks, Token.IsMark, Token.EndsBefore]

/-! ### The steps complete -/

namespace Step

def Marked (m : Char) (found : Bool) (ds : List Char) : Prop :=
  ∃ bs, (∀ c ∈ bs, isBlank c = true) ∧ ds = bs ++ if found then [m] else []

theorem takes_blanks : Takes (fun _ ds => ∀ c ∈ ds, isBlank c = true) blanks := by
  intro cs
  refine ⟨(), cs.takeWhile isBlank, cs.dropWhile isBlank, ?_, rfl, ?_⟩
  · exact List.takeWhile_append_dropWhile.symm
  · exact List.all_eq_true.mp List.all_takeWhile

theorem takes_mark (m : Char) : Takes (Marked m) (mark m) := by
  intro cs
  obtain ⟨_, bs, trimmed, hcs, htrimmed, hb⟩ := takes_blanks cs
  obtain rfl : trimLeft cs = trimmed := by cases htrimmed; rfl
  cases hrest : trimLeft cs with
  | nil =>
    refine ⟨false, bs, [], by rw [← hrest, ← hcs], ?_, bs, hb, by simp⟩
    rw [mark_eq, hrest]
    rfl
  | cons c rest =>
    by_cases hc : c = m
    · subst hc
      exact ⟨true, bs ++ [c], rest, by simp [← hrest, ← hcs], mark_of_eq hrest, bs, hb, rfl⟩
    · refine ⟨false, bs, c :: rest, by rw [← hrest, ← hcs], ?_, bs, hb, by simp⟩
      rw [mark_eq, hrest, symbol, if_neg hc]

theorem writes_letters : Writes (fun name ds => name = ds ∧ IsName ds) letters := by
  intro cs
  rw [letters]
  split
  · have ha : IsName ['a'] := by decide
    have hstop : Writes (fun name ds => name = ds ∧ IsName ds) (stop .expectedName) :=
      .stop ['a'] ⟨rfl, ha⟩ _
    exact hstop cs
  · rename_i hname
    have hread : Completes (fun name ds => name = ds ∧ IsName ds)
        (cs.takeWhile isNameChar ++ cs.dropWhile isNameChar)
        (.ok (cs.takeWhile isNameChar, cs.dropWhile isNameChar)) :=
      .read ⟨rfl, mt List.isEmpty_iff.mpr hname, List.all_eq_true.mp List.all_takeWhile⟩
    rwa [List.takeWhile_append_dropWhile] at hread

end Step

theorem writes_readBrackets :
    Writes (fun array ds => Adds (marks false array) ds) (readBrackets : Step Bool) := by
  rw [readBrackets_eq]
  refine (takes_mark '[').bind ?_
  rintro opened _ ⟨bs, hb, rfl⟩
  cases opened with
  | false => exact .pure (by simpa [marks] using adds_nil.blanks hb)
  | true =>
    refine (takes_mark ']').bind ?_
    rintro closed _ ⟨bs', hb', rfl⟩
    have hclosing := (adds_nil.mark (t := .closing) fun _ => trivial).blanks hb'
    have hboth := (hclosing.mark (t := .opening) fun _ => trivial).blanks hb
    cases closed with
    | true => exact .pure (by simpa [marks, Token.text] using hboth)
    | false =>
      exact .stop (a := true) [']'] (by simpa [marks, Token.text] using hboth) _

theorem writes_readSuffixes (name : String) (arguments : List TypeExpr) :
    Writes (fun t ds => ∃ nullable array, t = ⟨name, array, nullable, arguments⟩ ∧
      Adds (marks nullable array) ds) (readSuffixes name arguments : Step TypeExpr) := by
  rw [readSuffixes_eq]
  refine (takes_mark '?').bind ?_
  rintro nullable _ ⟨bs, hb, rfl⟩
  have hmarks {array : Bool} {ds : List Char} (h : Adds (marks false array) ds) :
      Adds (marks nullable array) (bs ++ (if nullable then ['?'] else []) ++ ds) := by
    rw [List.append_assoc]
    cases nullable with
    | true => exact (h.mark (t := .question) fun _ => trivial).blanks hb
    | false => exact h.blanks hb
  refine writes_readBrackets.bind ?_ ?_
  · intro array ds h
    exact .pure ⟨nullable, array, rfl, by simpa using hmarks h⟩
  · intro array ds h
    exact ⟨_, [], nullable, array, rfl, by simpa using hmarks h⟩

/-- A type is derived from the tokens that a text adds. -/
def Spelled (t : TypeExpr) (ds : List Char) : Prop :=
  ∃ ts, Derives ts t ∧ Adds ts ds

/-- Type arguments with the mark that closes them. -/
def ListSpelled (arguments : List TypeExpr) (ds : List Char) : Prop :=
  ∃ ts, DerivesAll ts arguments ∧ Adds (ts ++ [.greater]) ds

theorem spelled_bare {name ds : List Char} (hname : IsName name) {nullable array : Bool}
    (h : Adds (marks nullable array) ds) :
    Spelled ⟨String.ofList name, array, nullable, []⟩ (name ++ ds) :=
  ⟨_, .bare hname nullable array, (adds_name hname).append h isMark_of_mem_marks⟩

theorem spelled_generic {name bs ds es : List Char} (hname : IsName name)
    (hb : ∀ c ∈ bs, isBlank c = true) {arguments : List TypeExpr} (hall : ListSpelled arguments ds)
    {nullable array : Bool} (h : Adds (marks nullable array) es) :
    Spelled ⟨String.ofList name, array, nullable, arguments⟩
      (name ++ (bs ++ '<' :: (ds ++ es))) := by
  obtain ⟨ts, hderives, harguments⟩ := hall
  have hinside := ((harguments.append h isMark_of_mem_marks).mark (t := .less)
    fun _ => trivial).blanks hb
  have hwhole := (adds_name hname).append hinside (by simp [Token.IsMark, Token.EndsBefore])
  exact ⟨_, .generic hname hderives nullable array, by simpa [Token.text] using hwhole⟩

theorem Spelled.blanks {t : TypeExpr} {bs ds : List Char} (h : Spelled t ds)
    (hb : ∀ c ∈ bs, isBlank c = true) : Spelled t (bs ++ ds) := by
  obtain ⟨ts, hderives, hadds⟩ := h
  exact ⟨ts, hderives, hadds.blanks hb⟩

theorem listSpelled_single {t : TypeExpr} {ds bs : List Char} (h : Spelled t ds)
    (hb : ∀ c ∈ bs, isBlank c = true) : ListSpelled [t] (ds ++ (bs ++ ['>'])) := by
  obtain ⟨ts, hderives, hadds⟩ := h
  have hclosing := (adds_nil.mark (t := .greater) fun _ => trivial).blanks hb
  refine ⟨ts, .single hderives, ?_⟩
  simpa [Token.text] using hadds.append hclosing (by simp [Token.IsMark, Token.EndsBefore])

theorem listSpelled_cons {t : TypeExpr} {rest : List TypeExpr} {ds bs es : List Char}
    (h : Spelled t ds) (hb : ∀ c ∈ bs, isBlank c = true) (hrest : ListSpelled rest es) :
    ListSpelled (t :: rest) (ds ++ (bs ++ ',' :: es)) := by
  obtain ⟨ts, hderives, hadds⟩ := h
  obtain ⟨us, hothers, hmore⟩ := hrest
  have hfurther := (hmore.mark (t := .comma) fun _ => trivial).blanks hb
  refine ⟨_, .cons hderives hothers, ?_⟩
  simpa [Token.text] using hadds.append hfurther (by simp [Token.IsMark, Token.EndsBefore])

/-- Any fuel will do: where it runs out, a name is expected. -/
theorem writes_readers (fuel : Nat) :
    Writes Spelled (readType fuel : Step TypeExpr) ∧
      Writes ListSpelled (readArguments fuel : Step (List TypeExpr)) := by
  have hplain : Adds (marks false false) [] := adds_nil
  have hsolid {name : List Char} (hname : IsName name) :
      Spelled ⟨String.ofList name, false, false, []⟩ (name ++ []) := spelled_bare hname hplain
  have ha : IsName ['a'] := by decide
  have hnone : ∀ c ∈ ([] : List Char), isBlank c = true := by simp
  induction fuel with
  | zero => exact ⟨.stop _ (hsolid ha) _, .stop _ (listSpelled_single (hsolid ha) hnone) _⟩
  | succ fuel ih =>
    obtain ⟨ihtype, iharguments⟩ := ih
    constructor
    · rw [readType_succ]
      refine takes_blanks.bind fun _ bs hb => writes_letters.bind ?_ ?_
      · rintro name _ ⟨rfl, hname⟩
        refine (takes_mark '<').bind ?_
        rintro less _ ⟨bs', hb', rfl⟩
        cases less with
        | false =>
          refine (writes_readSuffixes _ _).imp ?_
          rintro _ ds ⟨nullable, array, rfl, h⟩
          simpa using (spelled_bare hname (h.blanks hb')).blanks hb
        | true =>
          refine iharguments.bind (fun arguments ds h => ?_) (fun arguments ds h => ?_)
          · refine (writes_readSuffixes _ _).imp ?_
            rintro _ es ⟨nullable, array, rfl, hmarks⟩
            simpa using (spelled_generic hname hb' h hmarks).blanks hb
          · refine ⟨⟨String.ofList name, false, false, arguments⟩, [], ?_⟩
            simpa using (spelled_generic hname hb' h hplain).blanks hb
      · rintro name _ ⟨rfl, hname⟩
        exact ⟨_, [], (hsolid hname).blanks hb⟩
    · rw [readArguments_succ]
      refine ihtype.bind (fun t ds h => ?_) (fun t ds h => ⟨_, _, listSpelled_single h hnone⟩)
      refine (takes_mark ',').bind ?_
      rintro comma _ ⟨bs, hb, rfl⟩
      cases comma with
      | true =>
        refine iharguments.bind (fun rest es hrest => ?_) (fun rest es hrest => ?_)
        · exact .pure (by simpa using listSpelled_cons h hb hrest)
        · exact ⟨_, [], by simpa using listSpelled_cons h hb hrest⟩
      | false =>
        refine (takes_mark '>').bind ?_
        rintro greater _ ⟨bs', hb', rfl⟩
        have hblanks : ∀ c ∈ bs ++ bs', isBlank c = true :=
          fun c hc => (List.mem_append.mp hc).elim (hb c) (hb' c)
        have hclosed := listSpelled_single h hblanks
        cases greater with
        | true => exact .pure (by simpa using hclosed)
        | false => exact .stop ['>'] (by simpa using hclosed) _

theorem writes_finish : Writes (fun _ ds => ds = []) finish := by
  intro cs
  cases cs with
  | nil => exact @Completes.read _ _ [] [] () rfl
  | cons c rest => exact @Completes.stopped _ _ [] [] (c :: rest) () _ rfl

theorem writes_readToEnd (fuel : Nat) : Writes Spelled (readToEnd fuel) := by
  refine (writes_readers fuel).1.bind (fun t ds h => ?_) (fun t ds h => ⟨t, [], by simpa using h⟩)
  refine takes_blanks.bind fun _ bs hb => ?_
  have hend : Spelled t (ds ++ bs) := by
    obtain ⟨ts, hderives, hadds⟩ := h
    exact ⟨ts, hderives, by simpa using hadds.append (adds_nil.blanks hb) (by simp)⟩
  refine writes_finish.bind ?_ ?_
  · rintro _ _ rfl
    exact .pure (by simpa using hend)
  · rintro _ _ rfl
    exact ⟨t, [], by simpa using hend⟩

/-! ### The earliest place -/

/-- Some text that is a type begins so. -/
def Viable (cs : List Char) : Prop :=
  ∃ s t, cs <+: s.toList ∧ parse s = .ok t

theorem Viable.of_prefix {cs ds : List Char} (h : Viable ds) (hcs : cs <+: ds) : Viable cs := by
  obtain ⟨s, t, hs, hparse⟩ := h
  exact ⟨s, t, hcs.trans hs, hparse⟩

theorem readToEnd_of_parse {s : String} {t : TypeExpr} (h : parse s = .ok t) :
    ∃ rest, readToEnd (2 * s.toList.length + 1) s.toList = .ok (t, rest) := by
  rw [parse, readWhole_eq] at h
  cases hread : readToEnd (2 * s.toList.length + 1) s.toList with
  | ok result =>
    rw [hread] at h
    cases h
    exact ⟨result.2, rfl⟩
  | error stop =>
    rw [hread] at h
    cases h

theorem exists_stop_of_parse {s : String} {e : ShorthandError} (h : parse s = .error e) :
    ∃ stop, readToEnd (2 * s.toList.length + 1) s.toList = .error stop ∧
      e.position = s.toList.length - stop.rest.length := by
  rw [parse, readWhole_eq] at h
  cases hread : readToEnd (2 * s.toList.length + 1) s.toList with
  | ok result =>
    rw [hread] at h
    cases h
  | error stop =>
    rw [hread] at h
    cases h
    exact ⟨stop, rfl, rfl⟩

/-- The text up to the place where reading stops can be completed. -/
theorem exists_parse_of_stop {fuel : Nat} {cs : List Char} {stop : Stop}
    (h : readToEnd fuel cs = .error stop) : ∃ taken, cs = taken ++ stop.rest ∧ Viable taken := by
  have hcompletes := writes_readToEnd fuel cs
  rw [h] at hcompletes
  cases hcompletes with
  | @stopped taken ending rest t problem hspelled =>
    obtain ⟨ts, hderives, hadds⟩ := hspelled
    refine ⟨taken, rfl, String.ofList (taken ++ ending), t, ?_, ?_⟩
    · rw [String.toList_ofList]
      exact List.prefix_append taken ending
    · refine parse_eq_ok_iff.mpr ⟨ts, ?_, hderives⟩
      rw [String.toList_ofList]
      exact hadds.spells

/-- Whatever text goes on with the character in front of which reading stops, it is no type. -/
theorem not_viable_of_stop {fuel : Nat} {taken rest : List Char} {c : Char}
    {problem : ShorthandProblem} (hfuel : 2 * (taken ++ c :: rest).length + 1 ≤ fuel)
    (h : readToEnd fuel (taken ++ c :: rest) = .error ⟨problem, c :: rest⟩) :
    ¬ Viable (taken ++ [c]) := by
  rintro ⟨s, t, ⟨more, hs⟩, hparse⟩
  rw [List.append_assoc, List.singleton_append] at hs
  obtain ⟨left, hread⟩ := readToEnd_of_parse hparse
  -- With enough fuel for both texts, they stop at the same character.
  have hmost := readToEnd_of_fuel hfuel (hfuel.trans (Nat.le_max_left _ (2 * s.toList.length + 1)))
  have hleft := congrArg TypeExpr.left (hmost.symm.trans h)
  have hsame := (Local.readToEnd _).exchange (show (c :: rest).head? = (c :: more).head? from rfl)
    (hleft.trans (List.nil_append _).symm)
  rw [← hmost, h, hs, ← readToEnd_of_fuel (Nat.le_refl _) (Nat.le_max_right _ _), hread] at hsame
  cases hsame

/-- The place of an error splits the text into what can be completed and what cannot go on. -/
theorem split_at_error {s : String} {e : ShorthandError} (h : parse s = .error e) :
    ∃ taken rest, s.toList = taken ++ rest ∧ taken.length = e.position ∧ Viable taken ∧
      ∀ c ∈ rest.head?, ¬ Viable (taken ++ [c]) := by
  obtain ⟨⟨problem, rest⟩, hread, hposition⟩ := exists_stop_of_parse h
  obtain ⟨taken, hs, hviable⟩ := exists_parse_of_stop hread
  refine ⟨taken, rest, hs, ?_, hviable, ?_⟩
  · have hlength := congrArg List.length hs
    simp only [List.length_append] at hlength hposition
    omega
  · intro c hc
    obtain ⟨rest, rfl⟩ := List.head?_eq_some_iff.mp hc
    rw [hs] at hread
    exact not_viable_of_stop (Nat.le_refl _) hread

/-- A text that is no type is refused behind its longest beginning that a type can have. -/
theorem parse_stops_earliest {s : String} {e : ShorthandError} (h : parse s = .error e) :
    e.position ≤ s.toList.length ∧ Viable (s.toList.take e.position) ∧
      (e.position < s.toList.length → ¬ Viable (s.toList.take (e.position + 1))) ∧
      ∀ n ≤ s.toList.length, Viable (s.toList.take n) ↔ n ≤ e.position := by
  obtain ⟨taken, rest, hs, hposition, hviable, hnone⟩ := split_at_error h
  have htaken : s.toList.take e.position = taken := by
    rw [hs, ← hposition, List.take_left]
  have hbeyond (hlt : e.position < s.toList.length) :
      ¬ Viable (s.toList.take (e.position + 1)) := by
    cases rest with
    | nil =>
      rw [hs, List.append_nil] at hlt
      omega
    | cons c rest =>
      have hone : s.toList.take (e.position + 1) = taken ++ [c] := by
        rw [hs, ← hposition, List.take_length_add_append]
        rfl
      rw [hone]
      exact hnone c rfl
  refine ⟨?_, by rwa [htaken], hbeyond, fun n hn => ⟨fun hviable' => ?_, fun hle => ?_⟩⟩
  · rw [hs, List.length_append]
    omega
  · by_contra hgt
    exact hbeyond (by omega) (hviable'.of_prefix (List.take_prefix_take_left (by omega)))
  · rw [← htaken] at hviable
    exact hviable.of_prefix (List.take_prefix_take_left hle)

/-- The inner type ends silently in front of the second question mark, where its list has no use
for it either. -/
theorem parse_stops_earliest_nested :
    parse "Map<List<Int? ?>>" = .error ⟨"Map<List<Int? ?>>", 14, .expectedClose⟩ ∧
      Viable "Map<List<Int? ".toList ∧ ¬ Viable "Map<List<Int? ?".toList := by
  have hparse : parse "Map<List<Int? ?>>" = .error ⟨"Map<List<Int? ?>>", 14, .expectedClose⟩ := by
    cbv
  obtain ⟨-, hviable, hbeyond, -⟩ := parse_stops_earliest hparse
  exact ⟨hparse, hviable, hbeyond (by decide)⟩

end BuildConstants.TypeExpr
