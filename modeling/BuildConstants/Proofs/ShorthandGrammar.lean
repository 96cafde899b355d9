import BuildConstants.TypeExpr.Parser

/-!
# The grammar of the shorthand

A text spells tokens that stand in it one after the other with blanks anywhere around them; a name
goes on as long as name characters do. The tokens of a type are derived by the grammar

    Type ::= Name [ '<' Type (',' Type)* '>' ] [ '?' ] [ '[' ']' ]

Every text spells at most one list of tokens, and derived tokens need no blanks between them.
-/

namespace BuildConstants.TypeExpr

open Text

/-- The characters of a name. -/
def IsName (letters : List Char) : Prop :=
  letters ≠ [] ∧ ∀ c ∈ letters, isNameChar c = true

instance (letters : List Char) : Decidable (IsName letters) :=
  decidable_of_iff (letters ≠ [] ∧ letters.all isNameChar = true) (by simp [IsName])

/-- No name goes on into the text. -/
def NoNameFirst (cs : List Char) : Prop :=
  ∀ c ∈ cs.head?, isNameChar c = false

inductive Token
  | name (letters : List Char) (h : IsName letters)
  | less
  | comma
  | greater
  | question
  | opening
  | closing

namespace Token

def text : Token → List Char
  | name letters _ => letters
  | less => ['<']
  | comma => [',']
  | greater => ['>']
  | question => ['?']
  | opening => ['[']
  | closing => [']']

/-- Names are as long as possible. -/
def EndsBefore (rest : List Char) : Token → Prop
  | name .. => NoNameFirst rest
  | _ => True

end Token

/-- The text consists of the tokens with blanks before, between and behind them. -/
inductive Spells : List Token → List Char → Prop
  | blanks {bs : List Char} (hb : ∀ c ∈ bs, isBlank c = true) : Spells [] bs
  | token {bs : List Char} (hb : ∀ c ∈ bs, isBlank c = true) {t : Token} {ts : List Token}
      {cs : List Char} (ht : t.EndsBefore cs) (h : Spells ts cs) :
      Spells (t :: ts) (bs ++ (t.text ++ cs))

/-- The two marks behind a type. -/
def marks (nullable array : Bool) : List Token :=
  (if nullable then [.question] else []) ++ (if array then [.opening, .closing] else [])

mutual

/-- The grammar, with the tree of each derivation: the name, the arguments in order, and whether
either mark is there. -/
inductive Derives : List Token → TypeExpr → Prop
  | bare {letters : List Char} (hname : IsName letters) (nullable array : Bool) :
      Derives (.name letters hname :: marks nullable array)
        ⟨String.ofList letters, array, nullable, []⟩
  | generic {letters : List Char} (hname : IsName letters) {ts : List Token}
      {arguments : List TypeExpr} (h : DerivesAll ts arguments) (nullable array : Bool) :
      Derives (.name letters hname :: .less :: (ts ++ .greater :: marks nullable array))
        ⟨String.ofList letters, array, nullable, arguments⟩

/-- One type or more, with commas between them. -/
inductive DerivesAll : List Token → List TypeExpr → Prop
  | single {ts : List Token} {t : TypeExpr} (h : Derives ts t) : DerivesAll ts [t]
  | cons {ts us : List Token} {t : TypeExpr} {rest : List TypeExpr} (h : Derives ts t)
      (hrest : DerivesAll us rest) : DerivesAll (ts ++ .comma :: us) (t :: rest)

end

/-! ### Characters -/

/-- The blanks beyond ASCII. -/
def blankRanges : List (Nat × Nat) := [
  (0x85, 0x85), (0xa0, 0xa0), (0x1680, 0x1680), (0x2000, 0x200a), (0x2028, 0x2029),
  (0x202f, 0x202f), (0x205f, 0x205f), (0x3000, 0x3000)]

theorem alphanumericRanges_apart : (alphanumericRanges.all fun r =>
    blankRanges.all fun b => Nat.blt r.2 b.1 || Nat.blt b.2 r.1) = true := by
  decide +kernel

theorem isBlank_cases {c : Char} (h : isBlank c = true) :
    c.toNat < 33 ∨ 128 ≤ c.toNat ∧ covers blankRanges c = true := by
  have hrange {r : Nat × Nat} (hr : r ∈ blankRanges) (hlo : r.1 ≤ c.toNat) (hhi : c.toNat ≤ r.2) :
      128 ≤ c.toNat ∧ covers blankRanges c = true := by
    have hbeyond : ∀ r ∈ blankRanges, 128 ≤ r.1 := by decide
    exact ⟨Nat.le_trans (hbeyond r hr) hlo, covers_eq_true_iff.mpr ⟨r, hr, hlo, hhi⟩⟩
  simp only [isBlank, Bool.or_eq_true, Bool.and_eq_true, decide_eq_true_eq, beq_iff_eq] at h
  rcases h with (((((((((h | h) | h) | h) | h) | h) | h) | h) | h) | h) | h
  · exact .inl (by omega)
  · exact .inl (by omega)
  · exact .inr (hrange (r := (0x85, 0x85)) (by decide) (by omega) (by omega))
  · exact .inr (hrange (r := (0xa0, 0xa0)) (by decide) (by omega) (by omega))
  · exact .inr (hrange (r := (0x1680, 0x1680)) (by decide) (by omega) (by omega))
  · exact .inr (hrange (r := (0x2000, 0x200a)) (by decide) h.1 h.2)
  · exact .inr (hrange (r := (0x2028, 0x2029)) (by decide) (by omega) (by omega))
  · exact .inr (hrange (r := (0x2028, 0x2029)) (by decide) (by omega) (by omega))
  · exact .inr (hrange (r := (0x202f, 0x202f)) (by decide) (by omega) (by omega))
  · exact .inr (hrange (r := (0x205f, 0x205f)) (by decide) (by omega) (by omega))
  · exact .inr (hrange (r := (0x3000, 0x3000)) (by decide) (by omega) (by omega))

theorem isAlphanumeric_of_isBlank {c : Char} (h : isBlank c = true) : isAlphanumeric c = false := by
  rcases isBlank_cases h with hlow | ⟨hbeyond, hblank⟩
  · have hall : ∀ n < 33, isAlphanumeric (Char.ofNat n) = false := by decide
    have hc := hall c.toNat hlow
    rwa [Char.ofNat_toNat] at hc
  · rw [isAlphanumeric, if_neg (by omega), Bool.eq_false_iff]
    intro hcovers
    -- Both tables would hold the character, but no two of their intervals meet.
    obtain ⟨b, hb, hlo, hhi⟩ := covers_eq_true_iff.mp hblank
    obtain ⟨r, hr, hlo', hhi'⟩ := covers_eq_true_iff.mp hcovers
    have hapart := List.all_eq_true.mp (List.all_eq_true.mp alphanumericRanges_apart r hr) b hb
    simp only [Bool.or_eq_true, Nat.blt_eq] at hapart
    omega

theorem isNameChar_of_isBlank {c : Char} (h : isBlank c = true) : isNameChar c = false := by
  have hmark : c ≠ '_' ∧ c ≠ '.' ∧ c ≠ '$' := by
    refine ⟨?_, ?_, ?_⟩ <;> rintro rfl <;> exact absurd h (by decide)
  simp [isNameChar, isAlphanumeric_of_isBlank h, hmark]

theorem trimLeft_blanks {bs : List Char} (hb : ∀ c ∈ bs, isBlank c = true) : trimLeft bs = [] := by
  rw [trimLeft, ← List.append_nil bs, List.dropWhile_append_of_pos hb, List.dropWhile_nil]

theorem trimLeft_blanks_append {bs : List Char} (hb : ∀ c ∈ bs, isBlank c = true) {c : Char}
    (hc : isBlank c = false) (cs : List Char) : trimLeft (bs ++ c :: cs) = c :: cs := by
  rw [trimLeft, List.dropWhile_append_of_pos hb, List.dropWhile_cons_of_neg (by simp [hc])]

theorem noNameFirst_cons {c : Char} (h : isNameChar c = false) (cs : List Char) :
    NoNameFirst (c :: cs) := by
  simpa [NoNameFirst] using h

theorem noNameFirst_dropWhile (cs : List Char) : NoNameFirst (cs.dropWhile isNameChar) := by
  induction cs with
  | nil => simp [NoNameFirst]
  | cons c cs ih =>
    cases hc : isNameChar c with
    | true =>
      rw [List.dropWhile_cons_of_pos hc]
      exact ih
    | false =>
      rw [List.dropWhile_cons_of_neg (by simp [hc])]
      exact noNameFirst_cons hc cs

namespace IsName

variable {letters rest : List Char}

theorem takeWhile (h : IsName letters) (hrest : NoNameFirst rest) :
    (letters ++ rest).takeWhile isNameChar = letters := by
  rw [List.takeWhile_append_of_pos h.2]
  cases rest with
  | nil => simp
  | cons c cs => rw [List.takeWhile_cons_of_neg (by simp [hrest c rfl]), List.append_nil]

theorem dropWhile (h : IsName letters) (hrest : NoNameFirst rest) :
    (letters ++ rest).dropWhile isNameChar = rest := by
  rw [List.dropWhile_append_of_pos h.2]
  cases rest with
  | nil => rfl
  | cons c cs => rw [List.dropWhile_cons_of_neg (by simp [hrest c rfl])]

theorem ne_cons (h : IsName letters) {c : Char} (hc : isNameChar c = false) (cs : List Char) :
    letters ++ rest ≠ c :: cs := by
  intro heq
  cases letters with
  | nil => exact h.1 rfl
  | cons a as =>
    obtain rfl := (List.cons.inj heq).1
    rw [h.2 a List.mem_cons_self] at hc
    cases hc

end IsName

/-! ### Tokens of a text -/

namespace Token

theorem isBlank_of_mem_text (t : Token) : ∀ c ∈ t.text, isBlank c = false := by
  cases t with
  | name letters h =>
    intro c hc
    cases hblank : isBlank c with
    | false => rfl
    | true =>
      have hname := h.2 c hc
      rw [isNameChar_of_isBlank hblank] at hname
      cases hname
  | less | comma | greater | question | opening | closing =>
    exact List.forall_mem_singleton.mpr (by decide)

theorem exists_text_eq (t : Token) : ∃ c cs, t.text = c :: cs ∧ isBlank c = false := by
  have hblank := t.isBlank_of_mem_text
  cases htext : t.text with
  | cons c cs => exact ⟨c, cs, rfl, hblank c (by rw [htext]; exact List.mem_cons_self)⟩
  | nil =>
    cases t with
    | name letters h => exact absurd htext h.1
    | less | comma | greater | question | opening | closing => cases htext

theorem one_le_length (t : Token) : 1 ≤ t.text.length := by
  obtain ⟨c, cs, htext, -⟩ := t.exists_text_eq
  simp [htext]

/-- Two tokens at the same place are one token. -/
theorem append_inj {t u : Token} {cs ds : List Char} (ht : t.EndsBefore cs)
    (hu : u.EndsBefore ds) (h : t.text ++ cs = u.text ++ ds) : t = u ∧ cs = ds := by
  cases t with
  | name letters hname =>
    cases u with
    | name letters' hname' =>
      obtain rfl : letters = letters' := by
        rw [← hname.takeWhile ht, ← hname'.takeWhile hu]
        exact congrArg (List.takeWhile isNameChar) h
      exact ⟨rfl, List.append_cancel_left h⟩
    | less | comma | greater | question | opening | closing =>
      exact absurd h (hname.ne_cons (by decide) _)
  | less | comma | greater | question | opening | closing =>
    cases u with
    | name letters' hname' => exact absurd h.symm (hname'.ne_cons (by decide) _)
    | less | comma | greater | question | opening | closing => simp_all [text]

end Token

namespace Spells

variable {t : Token} {ts us : List Token} {cs : List Char}

theorem trimLeft_eq_nil (h : Spells [] cs) : trimLeft cs = [] := by
  cases h with
  | blanks hb => exact trimLeft_blanks hb

/-- The first token stands right behind the blanks. -/
theorem exists_rest (h : Spells (t :: ts) cs) :
    ∃ rest, trimLeft cs = t.text ++ rest ∧ t.EndsBefore rest ∧ Spells ts rest := by
  cases h with
  | @token bs hb _ _ rest ht h =>
    obtain ⟨c, tail, htext, hc⟩ := t.exists_text_eq
    refine ⟨rest, ?_, ht, h⟩
    rw [htext, List.cons_append, trimLeft_blanks_append hb hc]

theorem of_blanks_append {bs : List Char} (hb : ∀ c ∈ bs, isBlank c = true) (h : Spells ts cs) :
    Spells ts (bs ++ cs) := by
  have happend {as : List Char} (ha : ∀ c ∈ as, isBlank c = true) :
      ∀ c ∈ bs ++ as, isBlank c = true := by
    intro c hc
    rcases List.mem_append.mp hc with hc | hc
    · exact hb c hc
    · exact ha c hc
  cases h with
  | blanks ha => exact .blanks (happend ha)
  | token ha ht h =>
    rw [← List.append_assoc]
    exact .token (happend ha) ht h

theorem of_trimLeft (h : Spells ts (trimLeft cs)) : Spells ts cs := by
  rw [← List.takeWhile_append_dropWhile (p := isBlank) (l := cs)]
  exact of_blanks_append (List.all_eq_true.mp List.all_takeWhile) h

theorem cons (ht : t.EndsBefore cs) (h : Spells ts cs) : Spells (t :: ts) (t.text ++ cs) := by
  have hnone : ∀ c ∈ ([] : List Char), isBlank c = true := by simp
  exact .token hnone ht h

theorem of_trimLeft_eq {rest : List Char} (hcs : trimLeft cs = t.text ++ rest)
    (ht : t.EndsBefore rest) (h : Spells ts rest) : Spells (t :: ts) cs := by
  refine of_trimLeft ?_
  rw [hcs]
  exact cons ht h

theorem trimmed (h : Spells ts cs) : Spells ts (trimLeft cs) := by
  cases ts with
  | nil =>
    rw [h.trimLeft_eq_nil]
    exact .blanks (by simp)
  | cons t ts =>
    obtain ⟨rest, hrest, ht, h⟩ := h.exists_rest
    rw [hrest]
    exact cons ht h

theorem tokens_unique (h : Spells ts cs) (h' : Spells us cs) : ts = us := by
  have hnil {u : Token} {us : List Token} {cs : List Char} (h : Spells [] cs)
      (h' : Spells (u :: us) cs) : False := by
    obtain ⟨rest, hrest, -⟩ := h'.exists_rest
    obtain ⟨c, tail, htext, -⟩ := u.exists_text_eq
    rw [h.trimLeft_eq_nil, htext] at hrest
    cases hrest
  induction ts generalizing us cs with
  | nil =>
    cases us with
    | nil => rfl
    | cons u us => exact (hnil h h').elim
  | cons t ts ih =>
    cases us with
    | nil => exact (hnil h' h).elim
    | cons u us =>
      obtain ⟨rest, hrest, ht, h⟩ := h.exists_rest
      obtain ⟨rest', hrest', hu, h'⟩ := h'.exists_rest
      obtain ⟨rfl, rfl⟩ := Token.append_inj ht hu (hrest.symm.trans hrest')
      rw [ih h h']

theorem length_le (h : Spells ts cs) : ts.length ≤ cs.length := by
  induction h with
  | blanks hb => exact Nat.zero_le _
  | @token bs hb t ts cs ht h ih =>
    have hone := t.one_le_length
    simp only [List.length_cons, List.length_append]
    omega

end Spells

def withoutBlanks (cs : List Char) : List Char :=
  cs.filter fun c => !isBlank c

theorem Spells.withoutBlanks_eq {ts : List Token} {cs : List Char} (h : Spells ts cs) :
    withoutBlanks cs = ts.flatMap Token.text := by
  induction h with
  | blanks hb => simpa [withoutBlanks] using hb
  | @token bs hb t ts cs ht h ih =>
    have hbs : bs.filter (fun c => !isBlank c) = [] := by simpa using hb
    have htext : t.text.filter (fun c => !isBlank c) = t.text := by
      rw [List.filter_eq_self]
      intro c hc
      rw [t.isBlank_of_mem_text c hc]
      rfl
    rw [withoutBlanks] at ih ⊢
    rw [List.filter_append, List.filter_append, hbs, htext, ih]
    rfl

/-! ### Writing derived tokens -/

/-- Written in front of any text that does not go on with a name, `ds` adds the tokens. -/
def Adds (ts : List Token) (ds : List Char) : Prop :=
  ∀ (more : List Token) (cs : List Char), NoNameFirst cs → Spells more cs →
    Spells (ts ++ more) (ds ++ cs)

theorem Adds.spells {ts : List Token} {ds : List Char} (h : Adds ts ds) : Spells ts ds := by
  simpa using h [] [] (by simp [NoNameFirst]) (.blanks (by simp))

theorem noNameFirst_marks (nullable array : Bool) {cs : List Char} (h : NoNameFirst cs) :
    NoNameFirst ((marks nullable array).flatMap Token.text ++ cs) := by
  cases nullable with
  | true => exact noNameFirst_cons (by decide) _
  | false =>
    cases array with
    | true => exact noNameFirst_cons (by decide) _
    | false => exact h

theorem spells_marks (nullable array : Bool) {more : List Token} {cs : List Char}
    (h : Spells more cs) :
    Spells (marks nullable array ++ more) ((marks nullable array).flatMap Token.text ++ cs) := by
  have harray : Spells (marks false array ++ more)
      ((marks false array).flatMap Token.text ++ cs) := by
    cases array with
    | true => exact .cons trivial (.cons trivial h)
    | false => exact h
  cases nullable with
  | true => exact .cons trivial harray
  | false => exact harray

theorem adds_bare {letters : List Char} (hname : IsName letters) (nullable array : Bool) :
    Adds (.name letters hname :: marks nullable array)
      (letters ++ (marks nullable array).flatMap Token.text) := by
  intro more cs hcs h
  have hbare := Spells.cons (t := .name letters hname) (noNameFirst_marks nullable array hcs)
    (spells_marks nullable array h)
  simpa [Token.text] using hbare

theorem adds_generic {letters : List Char} (hname : IsName letters) {ts : List Token}
    {ds : List Char} (h : Adds ts ds) (nullable array : Bool) :
    Adds (.name letters hname :: .less :: (ts ++ .greater :: marks nullable array))
      (letters ++ '<' :: (ds ++ '>' :: (marks nullable array).flatMap Token.text)) := by
  intro more cs hcs hmore
  have hmarks := Spells.cons (t := .greater) trivial (spells_marks nullable array hmore)
  have harguments := h _ _ (noNameFirst_cons (by decide) _) hmarks
  have hgeneric := Spells.cons (t := .name letters hname) (noNameFirst_cons (by decide) _)
    (Spells.cons (t := .less) trivial harguments)
  simpa [Token.text] using hgeneric

theorem adds_cons {ts us : List Token} {ds es : List Char} (h : Adds ts ds) (hrest : Adds us es)
    (bs : List Char) (hb : ∀ c ∈ bs, isBlank c = true) :
    Adds (ts ++ .comma :: us) (ds ++ ',' :: (bs ++ es)) := by
  intro more cs hcs hmore
  have hfurther := Spells.of_blanks_append hb (hrest more cs hcs hmore)
  have hall := h _ _ (noNameFirst_cons (by decide) _)
    (Spells.cons (t := .comma) trivial hfurther)
  simpa [Token.text] using hall

mutual

/-- Derived tokens may be written without blanks. -/
theorem Derives.adds_solid : ∀ {ts : List Token} {t : TypeExpr}, Derives ts t →
    Adds ts (ts.flatMap Token.text)
  | _, _, .bare hname nullable array => adds_bare hname nullable array
  | _, _, .generic hname h nullable array => by
    simpa [Token.text] using adds_generic hname h.adds_solid nullable array

theorem DerivesAll.adds_solid : ∀ {ts : List Token} {as : List TypeExpr}, DerivesAll ts as →
    Adds ts (ts.flatMap Token.text)
  | _, _, .single h => h.adds_solid
  | _, _, .cons h hrest => by
    simpa [Token.text] using adds_cons h.adds_solid hrest.adds_solid [] (by simp)

end

end BuildConstants.TypeExpr
