import BuildConstants.Proofs.CommentNesting
import Mathlib.Data.List.Forall2

/-!
# The lines of a documentation comment

What a comment does with a text is described without the functions that do it: how closing marks
are masked, where lines end and what is left of a line without its trailing blanks. The comment
has a line for each of these lines, between two of its own, and closes in its last two characters.
-/

namespace BuildConstants

open Text

namespace Text

/-- The characters that end a line, alone or as the two of CR LF. -/
def boundaries : List Char :=
  ['\n', '\r', '\x0b', '\x0c', '\x1c', '\x1d', '\x1e', '\u0085', '\u2028', '\u2029']

theorem isLineBreak_iff {c : Char} : isLineBreak c = true ↔ c ∈ boundaries := by
  have hmem : c ∈ boundaries ↔ c.toNat ∈ boundaries.map Char.toNat := by
    rw [List.mem_map]
    constructor
    · exact fun h => ⟨c, h, rfl⟩
    · rintro ⟨d, hd, heq⟩
      rwa [← Char.toNat_inj.mp heq]
  have hcodes : boundaries.map Char.toNat =
      [10, 13, 11, 12, 28, 29, 30, 0x85, 0x2028, 0x2029] := rfl
  rw [hmem, hcodes]
  simp only [isLineBreak, Bool.or_eq_true, Bool.and_eq_true, decide_eq_true_eq, beq_iff_eq,
    List.mem_cons, List.not_mem_nil, or_false]
  omega

def Unbroken (cs : List Char) : Prop :=
  ∀ c ∈ cs, c ∉ boundaries

/-- What ends a line in front of a rest of the text. -/
inductive EndsLine : List Char → List Char → Prop
  | pair (rest : List Char) : EndsLine ['\r', '\n'] rest
  | single {c : Char} {rest : List Char} (hc : c ∈ boundaries)
      (hpair : ¬ (c = '\r' ∧ rest.head? = some '\n')) : EndsLine [c] rest

/-- The lines of a text. There is none behind the last end of a line if nothing is there. -/
inductive HasLines : List Char → List (List Char) → Prop
  | none : HasLines [] []
  | last {l : List Char} (hne : l ≠ []) (hl : Unbroken l) : HasLines l [l]
  | line {l ending rest : List Char} {ls : List (List Char)} (hl : Unbroken l)
      (hending : EndsLine ending rest) (hrest : HasLines rest ls) :
      HasLines (l ++ (ending ++ rest)) (l :: ls)

theorem unbroken_cons {c : Char} {l : List Char} :
    Unbroken (c :: l) ↔ c ∉ boundaries ∧ Unbroken l := by
  simp [Unbroken]

theorem isLineBreak_eq_false_iff {c : Char} : isLineBreak c = false ↔ c ∉ boundaries := by
  rw [← isLineBreak_iff, Bool.not_eq_true]

theorem splitLines_cons {c : Char} (hc : c ∉ boundaries) (cs : List Char) :
    splitLines (c :: cs) = consToFirst c (splitLines cs) := by
  have hreturn : c ≠ '\r' := by
    rintro rfl
    exact hc (by decide)
  rw [splitLines, if_neg]
  · simpa [isLineBreak_iff] using hc
  · rintro rest rfl
    exact absurd rfl hreturn

theorem splitLines_ending {ending rest : List Char} (h : EndsLine ending rest) :
    splitLines (ending ++ rest) = [] :: splitLines rest := by
  cases h with
  | pair => rw [List.cons_append, List.singleton_append, splitLines]
  | @single c _ hc hpair =>
    rw [List.singleton_append, splitLines, if_pos (isLineBreak_iff.mpr hc)]
    rintro more rfl rfl
    exact hpair ⟨rfl, rfl⟩

theorem splitLines_line {l : List Char} (hl : Unbroken l) {cs : List Char}
    {ls : List (List Char)} (h : splitLines cs = [] :: ls) :
    splitLines (l ++ cs) = l :: ls := by
  induction l with
  | nil => exact h
  | cons c l ih =>
    obtain ⟨hc, hl⟩ := unbroken_cons.mp hl
    rw [List.cons_append, splitLines_cons hc, ih hl]
    rfl

theorem splitLines_unbroken {l : List Char} (hne : l ≠ []) (hl : Unbroken l) :
    splitLines l = [l] := by
  induction l with
  | nil => exact absurd rfl hne
  | cons c l ih =>
    obtain ⟨hc, hl⟩ := unbroken_cons.mp hl
    rw [splitLines_cons hc]
    cases l with
    | nil => rfl
    | cons d l =>
      rw [ih (by simp) hl]
      rfl

/-- A character that ends no line goes to the first line. -/
theorem HasLines.cons {c : Char} (hc : c ∉ boundaries) {cs : List Char} {ls : List (List Char)}
    (h : HasLines cs ls) : HasLines (c :: cs) (consToFirst c ls) := by
  cases h with
  | none => exact .last (by simp) (unbroken_cons.mpr ⟨hc, by simp [Unbroken]⟩)
  | last hne hl => exact .last (by simp) (unbroken_cons.mpr ⟨hc, hl⟩)
  | line hl hending hrest => exact .line (unbroken_cons.mpr ⟨hc, hl⟩) hending hrest

theorem hasLines_splitLines (cs : List Char) : HasLines cs (splitLines cs) := by
  have hnil : Unbroken [] := by simp [Unbroken]
  fun_induction splitLines cs with
  | case1 => exact .none
  | case2 rest ih => exact .line hnil (.pair rest) ih
  | case3 c rest hpair hbreak ih =>
    refine .line hnil (.single (isLineBreak_iff.mp hbreak) ?_) ih
    rintro ⟨rfl, hhead⟩
    obtain ⟨more, rfl⟩ := List.head?_eq_some_iff.mp hhead
    exact hpair more rfl rfl
  | case4 c rest hpair hbreak ih =>
    exact ih.cons (isLineBreak_eq_false_iff.mp (by simpa using hbreak))

theorem hasLines_iff {cs : List Char} {ls : List (List Char)} :
    HasLines cs ls ↔ ls = splitLines cs := by
  constructor
  · intro h
    induction h with
    | none => rfl
    | last hne hl => exact (splitLines_unbroken hne hl).symm
    | line hl hending hrest ih => rw [splitLines_line hl (splitLines_ending hending), ih]
  · rintro rfl
    exact hasLines_splitLines cs

/-- A text without the blanks at its end. -/
def Trimmed (cs ds : List Char) : Prop :=
  ∃ blanks, (∀ c ∈ blanks, isBlank c = true) ∧ cs = ds ++ blanks ∧
    ∀ c ∈ ds.getLast?, isBlank c = false

theorem trimmed_iff {cs ds : List Char} : Trimmed cs ds ↔ ds = trimRight cs := by
  constructor
  · rintro ⟨blanks, hblanks, rfl, hlast⟩
    exact (trimRight_eq hblanks hlast).symm
  · rintro rfl
    exact split_trimRight cs

/-- Another character keeps a pair from reaching over it. -/
theorem pair_infix_split {α : Type} {a b x : α} (ha : a ≠ x) (hb : b ≠ x) (l rest : List α) :
    [a, b] <:+: l ++ x :: rest ↔ [a, b] <:+: l ∨ [a, b] <:+: rest := by
  induction l with
  | nil => simp [pair_infix_cons, ha]
  | cons c l ih =>
    have hhead : (l ++ x :: rest).head? = some b ↔ l.head? = some b := by
      cases l <;> simp [hb.symm]
    rw [List.cons_append, pair_infix_cons, pair_infix_cons, hhead, ih, or_assoc]

/-- Behind a text without a pair of different characters, the pair comes at the very end only. -/
theorem eq_of_append_pair {α : Type} {a b : α} (hab : a ≠ b) {cs before after : List α}
    (hcs : ¬ [a, b] <:+: cs) (h : cs ++ [a, b] = before ++ a :: b :: after) :
    before = cs ∧ after = [] := by
  induction cs generalizing before with
  | nil =>
    cases before with
    | nil => simpa using h.symm
    | cons c before =>
      have hlength := congrArg List.length h
      simp at hlength
      omega
  | cons c cs ih =>
    rw [pair_infix_cons, not_or] at hcs
    cases before with
    | nil =>
      -- The pair would start at `c`, with `b` either next in the text or in the place of `a`.
      obtain ⟨rfl, hrest⟩ := List.cons.inj h
      cases cs with
      | nil => exact absurd (List.cons.inj hrest).1 hab
      | cons d cs => exact absurd ⟨rfl, congrArg some (List.cons.inj hrest).1⟩ hcs.1
    | cons d before =>
      obtain ⟨rfl, hrest⟩ := List.cons.inj h
      obtain ⟨rfl, hafter⟩ := ih hcs.2 hrest
      exact ⟨rfl, hafter⟩

end Text

namespace DocComment

/-- Closing marks replaced from left to right without overlaps. -/
inductive Masked : List Char → List Char → Prop
  | free {cs : List Char} (h : ¬ ['*', '/'] <:+: cs) : Masked cs cs
  | mark {front rest masked : List Char} (h : ¬ ['*', '/'] <:+: front)
      (hrest : Masked rest masked) :
      Masked (front ++ '*' :: '/' :: rest) (front ++ ("*&#47;".toList ++ masked))

theorem maskClosing_cons {c : Char} {cs : List Char} (h : ¬ (c = '*' ∧ cs.head? = some '/')) :
    maskClosing (c :: cs) = c :: maskClosing cs := by
  rw [maskClosing]
  rintro rest rfl rfl
  exact h ⟨rfl, rfl⟩

theorem maskClosing_free {cs : List Char} (h : ¬ ['*', '/'] <:+: cs) : maskClosing cs = cs := by
  induction cs with
  | nil => rfl
  | cons c cs ih =>
    rw [pair_infix_cons, not_or, eq_comm] at h
    rw [maskClosing_cons h.1, ih h.2]

theorem maskClosing_mark {front : List Char} (h : ¬ ['*', '/'] <:+: front) (rest : List Char) :
    maskClosing (front ++ '*' :: '/' :: rest) =
      front ++ ("*&#47;".toList ++ maskClosing rest) := by
  induction front with
  | nil => rfl
  | cons c front ih =>
    rw [pair_infix_cons, not_or] at h
    rw [List.cons_append, maskClosing_cons, ih h.2]
    · rfl
    · rintro ⟨rfl, hhead⟩
      cases front with
      | nil => cases hhead
      | cons d front => exact h.1 ⟨rfl, hhead⟩

theorem Masked.cons {c : Char} {cs masked : List Char} (hc : ¬ (c = '*' ∧ cs.head? = some '/'))
    (h : Masked cs masked) : Masked (c :: cs) (c :: masked) := by
  cases h with
  | free h =>
    apply Masked.free
    rw [pair_infix_cons, eq_comm]
    exact not_or.mpr ⟨hc, h⟩
  | @mark front rest masked h hrest =>
    refine @Masked.mark (c :: front) rest masked ?_ hrest
    rw [pair_infix_cons, eq_comm]
    refine not_or.mpr ⟨fun ⟨hstar, hhead⟩ => hc ⟨hstar, ?_⟩, h⟩
    rw [List.head?_append, hhead]
    rfl

theorem masked_iff {cs ds : List Char} : Masked cs ds ↔ ds = maskClosing cs := by
  constructor
  · intro h
    induction h with
    | free h => exact (maskClosing_free h).symm
    | mark h hrest ih => rw [maskClosing_mark h, ih]
  · rintro rfl
    fun_induction maskClosing cs with
    | case1 => exact .free (by simp)
    | case2 rest ih => exact @Masked.mark [] _ _ (by simp) ih
    | case3 c rest hc ih =>
      refine ih.cons ?_
      rintro ⟨rfl, hhead⟩
      obtain ⟨more, rfl⟩ := List.head?_eq_some_iff.mp hhead
      exact hc more rfl rfl

/-- The lines of the masked text, or an empty one if it has none. -/
inductive HasBody (cs : List Char) : List (List Char) → Prop
  | lines {masked l : List Char} {ls : List (List Char)} (hmasked : Masked cs masked)
      (hlines : HasLines masked (l :: ls)) : HasBody cs (l :: ls)
  | empty {masked : List Char} (hmasked : Masked cs masked) (hlines : HasLines masked []) :
      HasBody cs [[]]

theorem hasBody_iff {s : String} {ls : List (List Char)} :
    HasBody s.toList ls ↔ ls = (body s).map String.toList := by
  constructor
  · rintro (⟨hmasked, hlines⟩ | ⟨hmasked, hlines⟩)
    all_goals
      obtain rfl := masked_iff.mp hmasked
      rw [body, ← hasLines_iff.mp hlines]
      simp [Function.comp_def]
  · rintro rfl
    have hmasked : Masked s.toList (maskClosing s.toList) := masked_iff.mpr rfl
    have hlines := hasLines_splitLines (maskClosing s.toList)
    rw [body]
    split
    · rename_i hnone
      exact .empty hmasked (hnone ▸ hlines)
    · rename_i hsome
      obtain ⟨l, ls, hls⟩ := List.exists_cons_of_ne_nil hsome
      rw [hls] at hlines ⊢
      simpa [Function.comp_def] using HasBody.lines hmasked hlines

theorem not_isLineBreak_of_mem_body {s l : String} (h : l ∈ body s) :
    ∀ c ∈ l.toList, isLineBreak c = false := by
  rw [body] at h
  split at h
  · obtain rfl := List.mem_singleton.mp h
    simp
  · obtain ⟨cs, hcs, rfl⟩ := List.mem_map.mp h
    simpa using not_isLineBreak_of_mem_splitLines hcs

theorem pair_infix_terminated {a b : Char} (ha : a ≠ '\n') (hb : b ≠ '\n')
    (ls : List (List Char)) (rest : List Char) :
    [a, b] <:+: Kotlin.terminated ls ++ rest ↔ (∃ l ∈ ls, [a, b] <:+: l) ∨ [a, b] <:+: rest := by
  induction ls with
  | nil => simp [Kotlin.terminated]
  | cons l ls ih =>
    rw [Kotlin.terminated_cons_append, pair_infix_split ha hb, ih]
    simp [or_assoc]

/-- A comment up to its closing mark. -/
def beforeClosing (indent s : String) : List Char :=
  Kotlin.terminated ((indent.toList ++ "/**".toList) :: (body s).map fun l =>
    trimRight (indent.toList ++ ' ' :: '*' :: ' ' :: l.toList)) ++ (indent.toList ++ [' '])

theorem toList_intercalate_lines (indent s : String) :
    (String.intercalate "\n" (lines indent s)).toList = beforeClosing indent s ++ ['*', '/'] := by
  have hlines : lines indent s = ((indent ++ "/**") :: (body s).map
      fun l => trimEnd (indent ++ " * " ++ l)) ++ [indent ++ " */"] := rfl
  rw [hlines, Kotlin.toList_intercalate, beforeClosing]
  simp [trimEnd, Function.comp_def]

section Indent

variable {indent : String} (hindent : ∀ c ∈ indent.toList, c = ' ')
include hindent

theorem not_isLineBreak_of_mem_lines {s row : String} (h : row ∈ lines indent s) :
    ∀ c ∈ row.toList, isLineBreak c = false := by
  have hbehind {text : String} (htext : ∀ c ∈ text.toList, isLineBreak c = false) :
      ∀ c ∈ (indent ++ text).toList, isLineBreak c = false := by
    rw [String.toList_append, List.forall_mem_append]
    refine ⟨fun c hc => ?_, htext⟩
    rw [hindent c hc]
    decide
  rcases List.mem_cons.mp h with rfl | h
  · exact hbehind (by simp [isLineBreak])
  rcases List.mem_append.mp h with h | h
  · obtain ⟨l, hl, rfl⟩ := List.mem_map.mp h
    have hline : ∀ c ∈ (" * " ++ l).toList, isLineBreak c = false := by
      rw [String.toList_append, List.forall_mem_append]
      exact ⟨by simp [isLineBreak], not_isLineBreak_of_mem_body hl⟩
    intro c hc
    rw [trimEnd, String.toList_ofList, String.append_assoc] at hc
    exact hbehind hline c (mem_of_mem_trimRight hc)
  · obtain rfl := List.mem_singleton.mp h
    exact hbehind (by simp [isLineBreak])

theorem not_closing_beforeClosing (s : String) : ¬ ['*', '/'] <:+: beforeClosing indent s := by
  have hrow (l : List Char) : ['*', '/'] <:+:
      trimRight (indent.toList ++ ' ' :: '*' :: ' ' :: l) ↔ ['*', '/'] <:+: l :=
    pair_infix_margin hindent (by decide) (by decide) l
  rw [beforeClosing, pair_infix_terminated (by decide) (by decide), not_or, not_exists]
  constructor
  · rintro cs ⟨hcs, hpair⟩
    rcases List.mem_cons.mp hcs with rfl | hcs
    · rw [pair_infix_indent hindent (by decide)] at hpair
      revert hpair
      decide
    · obtain ⟨l, hl, rfl⟩ := List.mem_map.mp hcs
      have hclosing := (pair_infix_body (by decide) (by decide) s).mp ⟨l, hl, (hrow _).mp hpair⟩
      exact not_closing_maskClosing s.toList hclosing
  · rw [pair_infix_indent hindent (by decide)]
    decide

/-- A comment holds the lines of its text in order, each behind the margin and without blanks at
its end. None of its lines breaks, and together they close the comment once, at the end. -/
theorem lines_enclose_text (s : String) :
    (∀ ls, HasBody s.toList ls ↔ ls = (body s).map String.toList) ∧
    (∃ rows, lines indent s = (indent ++ "/**") :: (rows ++ [indent ++ " */"]) ∧
      (lines indent s).length = (body s).length + 2 ∧
      List.Forall₂ (fun l row => ∀ cs,
        Trimmed (indent ++ " * " ++ l).toList cs ↔ cs = row.toList) (body s) rows) ∧
    (∀ row ∈ lines indent s, '\n' ∉ row.toList ∧ '\r' ∉ row.toList) ∧
    ∃ front, (String.intercalate "\n" (lines indent s)).toList = front ++ ['*', '/'] ∧
      ∀ before after, (String.intercalate "\n" (lines indent s)).toList =
        before ++ '*' :: '/' :: after → before = front ∧ after = [] := by
  refine ⟨fun ls => hasBody_iff, ⟨_, rfl, length_lines indent s, ?_⟩, ?_, ?_⟩
  · rw [List.forall₂_map_right_iff, List.forall₂_same]
    intro l _ cs
    rw [trimEnd, String.toList_ofList]
    exact trimmed_iff
  · intro row hrow
    have hbreaks := not_isLineBreak_of_mem_lines hindent hrow
    refine ⟨fun hmem => ?_, fun hmem => ?_⟩
    · cases hbreaks _ hmem
    · cases hbreaks _ hmem
  · refine ⟨_, toList_intercalate_lines indent s, fun before after h => ?_⟩
    rw [toList_intercalate_lines] at h
    exact eq_of_append_pair (by decide) (not_closing_beforeClosing hindent s) h

end Indent

/-- Marks that overlap, two ends of lines of which the first is CR LF, and blanks behind a line. -/
theorem lines_enclose_text_overlapping :
    lines "  " "a **// \r\n\u2028x\t\n" =
      ["  /**", "   * a **&#47;/", "   *", "   * x", "   */"] ∧
    HasBody "a **// \r\n\u2028x\t\n".toList ["a **&#47;/ ".toList, [], "x\t".toList] ∧
    ∃ front, (String.intercalate "\n" (lines "  " "a **// \r\n\u2028x\t\n")).toList =
        front ++ ['*', '/'] ∧
      ∀ before after, (String.intercalate "\n" (lines "  " "a **// \r\n\u2028x\t\n")).toList =
        before ++ '*' :: '/' :: after → before = front ∧ after = [] := by
  have hindent : ∀ c ∈ "  ".toList, c = ' ' := by simp
  obtain ⟨hbody, -, -, hclosing⟩ := lines_enclose_text hindent "a **// \r\n\u2028x\t\n"
  refine ⟨?_, (hbody _).mpr ?_, hclosing⟩
  · decide
  · decide

end DocComment

end BuildConstants
