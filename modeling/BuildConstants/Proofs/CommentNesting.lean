import BuildConstants.Dialect.Kotlin
import BuildConstants.Proofs.Outcome

/-!
# Nested comments

Kotlin nests block comments: an opening mark inside of a comment opens another level. The text of
a documentation comment is kept from closing the comment, not from opening levels. So the comment
ends where its last line ends exactly if the masked text opens none.
-/

namespace BuildConstants

open Text Outcome

namespace Text

theorem pair_infix_cons {α : Type} {a b c : α} {cs : List α} :
    [a, b] <:+: c :: cs ↔ (a = c ∧ cs.head? = some b) ∨ [a, b] <:+: cs := by
  rw [List.infix_cons_iff, List.cons_prefix_cons]
  have hhead : [b] <+: cs ↔ cs.head? = some b := by
    cases cs <;> simp [List.cons_prefix_cons, eq_comm]
  rw [hhead]

theorem pair_infix_append {α : Type} {a b : α} {xs ys : List α} (h : b ∉ ys) :
    [a, b] <:+: xs ++ ys ↔ [a, b] <:+: xs := by
  constructor
  · intro hpair
    induction xs with
    | nil => exact absurd (hpair.subset (by simp)) h
    | cons x xs ih =>
      rw [List.cons_append, pair_infix_cons] at hpair
      rw [pair_infix_cons]
      rcases hpair with ⟨ha, hb⟩ | hpair
      · cases xs with
        | nil => exact absurd (List.mem_of_mem_head? hb) h
        | cons y xs => exact .inl ⟨ha, hb⟩
      · exact .inr (ih hpair)
  · exact fun hpair => hpair.trans (List.prefix_append xs ys).isInfix

theorem trimRight_cons {c : Char} (hc : isBlank c = false) (cs : List Char) :
    trimRight (c :: cs) = c :: trimRight cs := by
  rw [trimRight, trimRight, List.reverse_cons, List.dropWhile_append]
  split
  · rename_i hnone
    simp [List.isEmpty_iff.mp hnone, hc]
  · simp

theorem mem_of_mem_trimRight {c : Char} {cs : List Char} (h : c ∈ trimRight cs) : c ∈ cs := by
  obtain ⟨blanks, -, hcs, -⟩ := split_trimRight cs
  rw [hcs]
  exact List.mem_append_left _ h

theorem pair_infix_trimRight {a b : Char} (hb : isBlank b = false) (cs : List Char) :
    [a, b] <:+: trimRight cs ↔ [a, b] <:+: cs := by
  obtain ⟨blanks, hblanks, hcs, -⟩ := split_trimRight cs
  have hmem : b ∉ blanks := by
    intro h
    rw [hblanks b h] at hb
    cases hb
  conv => rhs; rw [hcs]
  exact (pair_infix_append hmem).symm

/-- A character that breaks no line and stands first is the first one of the first line. -/
theorem head?_splitLines {b : Char} (hb : isLineBreak b = false) (cs : List Char) :
    cs.head? = some b ↔ (splitLines cs).head?.bind List.head? = some b := by
  fun_cases splitLines cs with
  | case1 => simp
  | case2 rest =>
    simp only [List.head?_cons, Option.some.injEq, Option.bind_some, List.head?_nil]
    constructor
    · rintro rfl
      cases hb
    · nofun
  | case3 c rest hc hbreak =>
    simp only [List.head?_cons, Option.some.injEq, Option.bind_some, List.head?_nil]
    constructor
    · rintro rfl
      rw [hbreak] at hb
      cases hb
    · nofun
  | case4 c rest hc hbreak =>
    cases splitLines rest <;> simp [consToFirst]

/-- A pair of characters that break no line stands in one of the lines. -/
theorem pair_infix_splitLines {a b : Char} (ha : isLineBreak a = false)
    (hb : isLineBreak b = false) (cs : List Char) :
    [a, b] <:+: cs ↔ ∃ l ∈ splitLines cs, [a, b] <:+: l := by
  fun_induction splitLines cs with
  | case1 => simp
  | case2 rest ih =>
    have hreturn : a ≠ '\r' := by rintro rfl; cases ha
    have hfeed : a ≠ '\n' := by rintro rfl; cases ha
    simp [pair_infix_cons, hreturn, hfeed, ih]
  | case3 c rest hc hbreak ih =>
    have hne : a ≠ c := by
      rintro rfl
      rw [ha] at hbreak
      cases hbreak
    simp [pair_infix_cons, hne, ih]
  | case4 c rest hc hbreak ih =>
    rw [pair_infix_cons, ih, head?_splitLines hb rest]
    cases splitLines rest with
    | nil => simp [consToFirst, pair_infix_cons]
    | cons l ls => simp [consToFirst, pair_infix_cons, or_assoc]

end Text

namespace DocComment

theorem head?_maskClosing (cs : List Char) : (maskClosing cs).head? = cs.head? := by
  fun_cases maskClosing cs <;> rfl

/-- The masked text closes no comment. -/
theorem not_closing_maskClosing (cs : List Char) : ¬ ['*', '/'] <:+: maskClosing cs := by
  fun_induction maskClosing cs with
  | case1 => simp
  | case2 rest ih => simpa [replacement, pair_infix_cons] using ih
  | case3 c rest hc ih =>
    rw [pair_infix_cons, head?_maskClosing]
    rintro (⟨rfl, hhead⟩ | hpair)
    · obtain ⟨more, rfl⟩ := List.head?_eq_some_iff.mp hhead
      exact hc more rfl rfl
    · exact ih hpair

theorem pair_infix_indent {indent : List Char} (hindent : ∀ c ∈ indent, c = ' ') {a b : Char}
    (hspace : a ≠ ' ') (cs : List Char) : [a, b] <:+: indent ++ cs ↔ [a, b] <:+: cs := by
  induction indent with
  | nil => rfl
  | cons c indent ih =>
    obtain rfl := hindent c List.mem_cons_self
    rw [List.cons_append, pair_infix_cons, ih fun d hd => hindent d (List.mem_cons_of_mem _ hd)]
    simp [hspace]

/-- The margin before a line makes no mark: a blank stands on both sides of its star. -/
theorem pair_infix_margin {indent : List Char} (hindent : ∀ c ∈ indent, c = ' ') {a b : Char}
    (hspace : a ≠ ' ') (hblank : isBlank b = false) (l : List Char) :
    [a, b] <:+: trimRight (indent ++ ' ' :: '*' :: ' ' :: l) ↔ [a, b] <:+: l := by
  have hstar : ' ' ≠ b := by
    rintro rfl
    cases hblank
  rw [pair_infix_trimRight hblank, pair_infix_indent hindent hspace]
  simp [pair_infix_cons, hspace, hstar]

/-- The lines have the marks of the masked text. -/
theorem pair_infix_body {a b : Char} (ha : isLineBreak a = false) (hb : isLineBreak b = false)
    (s : String) :
    (∃ l ∈ body s, [a, b] <:+: l.toList) ↔ [a, b] <:+: maskClosing s.toList := by
  rw [pair_infix_splitLines ha hb, body]
  split
  · rename_i hnone
    simp [hnone]
  · constructor
    · rintro ⟨l, hl, hpair⟩
      obtain ⟨cs, hcs, rfl⟩ := List.mem_map.mp hl
      exact ⟨cs, hcs, by simpa using hpair⟩
    · rintro ⟨cs, hcs, hpair⟩
      exact ⟨String.ofList cs, List.mem_map_of_mem hcs, by simpa using hpair⟩

/-- An opening mark whose first character does not end a closing mark. -/
def Opens (cs : List Char) : Prop :=
  ∃ before after, cs = before ++ '/' :: '*' :: after ∧ before.getLast? ≠ some '*'

theorem opens_cons {c : Char} {cs : List Char} :
    Opens (c :: cs) ↔ (c = '/' ∧ cs.head? = some '*') ∨
      ∃ before after, cs = before ++ '/' :: '*' :: after ∧ (c :: before).getLast? ≠ some '*' := by
  constructor
  · rintro ⟨before, after, heq, hlast⟩
    cases before with
    | nil =>
      obtain ⟨rfl, rfl⟩ := List.cons.inj heq
      exact .inl ⟨rfl, rfl⟩
    | cons b before =>
      obtain ⟨rfl, rfl⟩ := List.cons.inj heq
      exact .inr ⟨before, after, rfl, hlast⟩
  · rintro (⟨rfl, hhead⟩ | ⟨before, after, rfl, hlast⟩)
    · obtain ⟨after, rfl⟩ := List.head?_eq_some_iff.mp hhead
      exact ⟨[], after, rfl, by simp⟩
    · exact ⟨c :: before, after, rfl, hlast⟩

/-- Behind any character that is no star, or if no slash comes first, a text opens what it opens
alone. -/
theorem opens_behind {c : Char} {cs : List Char} (h : c ≠ '*' ∨ cs.head? ≠ some '/') :
    (∃ before after, cs = before ++ '/' :: '*' :: after ∧ (c :: before).getLast? ≠ some '*') ↔
      Opens cs := by
  constructor
  · rintro ⟨before, after, rfl, hlast⟩
    refine ⟨before, after, rfl, ?_⟩
    cases before with
    | nil => simp
    | cons b before => simpa [List.getLast?_cons_cons] using hlast
  · rintro ⟨before, after, rfl, hlast⟩
    refine ⟨before, after, rfl, ?_⟩
    cases before with
    | nil => simpa using h
    | cons b before => simpa [List.getLast?_cons_cons] using hlast

theorem opens_closing {cs : List Char} : Opens ('*' :: '/' :: cs) ↔ Opens cs := by
  rw [opens_cons, ← opens_behind (c := '/') (.inl (by decide))]
  constructor
  · rintro (⟨h, -⟩ | ⟨before, after, heq, hlast⟩)
    · cases h
    · cases before with
      | nil => exact absurd rfl hlast
      | cons b before =>
        obtain ⟨rfl, rfl⟩ := List.cons.inj heq
        exact ⟨before, after, rfl, by simpa [List.getLast?_cons_cons] using hlast⟩
  · rintro ⟨before, after, rfl, hlast⟩
    exact .inr ⟨'/' :: before, after, rfl, by simpa [List.getLast?_cons_cons] using hlast⟩

theorem opens_maskClosing (cs : List Char) : ['/', '*'] <:+: maskClosing cs ↔ Opens cs := by
  fun_induction maskClosing cs with
  | case1 => simp [Opens]
  | case2 rest ih =>
    have hmask : ['/', '*'] <:+: replacement ++ maskClosing rest ↔ Opens rest := by
      simpa [replacement, pair_infix_cons] using ih
    rw [hmask, opens_closing]
  | case3 c rest hc ih =>
    have hpair : c ≠ '*' ∨ rest.head? ≠ some '/' := by
      by_cases hstar : c = '*'
      · apply Or.inr
        intro hhead
        obtain ⟨more, rfl⟩ := List.head?_eq_some_iff.mp hhead
        exact hc more hstar rfl
      · exact .inl hstar
    rw [pair_infix_cons, head?_maskClosing, ih, opens_cons, opens_behind hpair, eq_comm]

end DocComment

namespace Kotlin

/-- What follows a comment `depth` levels above the outermost one. -/
def within : Nat → List Char → Option (List Char)
  | _, [] => none
  | depth, '/' :: '*' :: rest => within (depth + 1) rest
  | 0, '*' :: '/' :: rest => some rest
  | depth + 1, '*' :: '/' :: rest => within depth rest
  | depth, _ :: rest => within depth rest

def afterComment : List Char → Option (List Char)
  | '/' :: '*' :: rest => within 0 rest
  | _ => none

def opened : List Char → Nat
  | [] => 0
  | '/' :: '*' :: rest => opened rest + 1
  | _ :: rest => opened rest

theorem opened_eq_zero_iff (cs : List Char) : opened cs = 0 ↔ ¬ ['/', '*'] <:+: cs := by
  fun_induction opened cs with
  | case1 => simp
  | case2 rest ih => simp [pair_infix_cons]
  | case3 c rest hc ih =>
    rw [ih, pair_infix_cons]
    have hhead : ¬ ('/' = c ∧ rest.head? = some '*') := by
      rintro ⟨rfl, hhead⟩
      obtain ⟨more, rfl⟩ := List.head?_eq_some_iff.mp hhead
      exact hc more rfl rfl
    simp [hhead]

theorem within_skip {c : Char} {cs : List Char} (hopen : ¬ (c = '/' ∧ cs.head? = some '*'))
    (hclose : ¬ (c = '*' ∧ cs.head? = some '/')) (depth : Nat) :
    within depth (c :: cs) = within depth cs := by
  rw [within]
  · rintro rest rfl rfl
    exact hopen ⟨rfl, rfl⟩
  · rintro rest - rfl rfl
    exact hclose ⟨rfl, rfl⟩
  · rintro depth rest - rfl rfl
    exact hclose ⟨rfl, rfl⟩

/-- A line that closes nothing leaves the comment as many levels deeper as it opens. -/
theorem within_line {l : List Char} (hl : ¬ ['*', '/'] <:+: l) (depth : Nat) (rest : List Char) :
    within depth (l ++ '\n' :: rest) = within (depth + opened l) rest := by
  fun_induction opened l generalizing depth with
  | case1 => exact within_skip (by simp) (by simp) depth
  | case2 l ih =>
    have hrest : ¬ ['*', '/'] <:+: l := by
      intro h
      exact hl (pair_infix_cons.mpr (.inr (pair_infix_cons.mpr (.inr h))))
    rw [List.cons_append, List.cons_append, within, ih hrest]
    congr 1
    omega
  | case3 c l hc ih =>
    -- The break behind the line keeps a mark from reaching over its end.
    rw [pair_infix_cons, not_or] at hl
    rw [List.cons_append, within_skip, ih hl.2]
    · rintro ⟨rfl, hhead⟩
      cases l with
      | nil => cases hhead
      | cons d l =>
        obtain rfl := Option.some.inj hhead
        exact hc l rfl rfl
    · rintro ⟨rfl, hhead⟩
      cases l with
      | nil => cases hhead
      | cons d l => exact hl.1 ⟨rfl, hhead⟩

/-- The characters of lines, each with a break behind it. -/
def terminated (ls : List (List Char)) : List Char :=
  ls.flatMap (· ++ ['\n'])

theorem terminated_append (ls ms : List (List Char)) :
    terminated (ls ++ ms) = terminated ls ++ terminated ms := by
  simp [terminated]

theorem terminated_cons_append (l : List Char) (ls : List (List Char)) (rest : List Char) :
    terminated (l :: ls) ++ rest = l ++ '\n' :: (terminated ls ++ rest) := by
  simp [terminated]

/-- How many comments the lines open. -/
def openedIn (ls : List (List Char)) : Nat :=
  ls.foldr (fun l count => opened l + count) 0

theorem openedIn_cons (l : List Char) (ls : List (List Char)) :
    openedIn (l :: ls) = opened l + openedIn ls := rfl

theorem openedIn_eq_zero_iff {ls : List (List Char)} :
    openedIn ls = 0 ↔ ∀ l ∈ ls, opened l = 0 := by
  induction ls with
  | nil => simp [openedIn]
  | cons l ls ih => simp [openedIn_cons, ih]

theorem within_terminated {ls : List (List Char)} (h : ∀ l ∈ ls, ¬ ['*', '/'] <:+: l) (depth : Nat)
    (rest : List Char) :
    within depth (terminated ls ++ rest) = within (depth + openedIn ls) rest := by
  induction ls generalizing depth with
  | nil => rfl
  | cons l ls ih =>
    rw [terminated_cons_append, within_line (h l List.mem_cons_self),
      ih fun m hm => h m (List.mem_cons_of_mem l hm), openedIn_cons, Nat.add_assoc]

theorem toList_intercalate (ls : List String) (l : String) :
    (String.intercalate "\n" (ls ++ [l])).toList =
      terminated (ls.map String.toList) ++ l.toList := by
  induction ls with
  | nil => simp [terminated]
  | cons m ls ih =>
    have hne : ∃ k ks, ls ++ [l] = k :: ks := by cases ls <;> simp
    obtain ⟨k, ks, hks⟩ := hne
    rw [List.cons_append, hks, String.intercalate_cons_cons, ← hks, String.toList_append, ih]
    simp [terminated]

theorem toList_joinLines {ls : List String} (h : ls ≠ []) :
    (joinLines ls).toList = terminated (ls.map String.toList) := by
  obtain ⟨init, last, rfl⟩ : ∃ init last, ls = init ++ [last] :=
    ⟨_, _, (List.dropLast_concat_getLast h).symm⟩
  rw [joinLines, String.toList_append, toList_intercalate]
  simp [terminated]

/-- The documentation comment of an object. -/
def comment (s : String) : String :=
  String.intercalate "\n" (DocComment.lines "" s)

/-- The lines between the first and the last one. -/
def commentBody (s : String) : List (List Char) :=
  (DocComment.body s).map fun l => trimRight (' ' :: '*' :: ' ' :: l.toList)

theorem toList_comment (s : String) : (comment s).toList =
    '/' :: '*' :: '*' :: '\n' :: (terminated (commentBody s) ++ [' ', '*', '/']) := by
  have hlines : DocComment.lines "" s = ("/**" :: (DocComment.body s).map
      fun l => trimEnd ("" ++ " * " ++ l)) ++ [" */"] := rfl
  rw [comment, hlines, toList_intercalate]
  simp [terminated, commentBody, trimEnd, Function.comp_def]

/-- The lines of the comment have no mark exactly if the masked text has none. -/
theorem not_pair_infix_commentBody {a b : Char} (ha : isLineBreak a = false)
    (hb : isLineBreak b = false) (hblank : isBlank b = false) (hspace : a ≠ ' ') (s : String) :
    (∀ l ∈ commentBody s, ¬ [a, b] <:+: l) ↔ ¬ [a, b] <:+: DocComment.maskClosing s.toList := by
  have hindent : ∀ c ∈ ([] : List Char), c = ' ' := by simp
  have hline (l : String) : [a, b] <:+: trimRight (' ' :: '*' :: ' ' :: l.toList) ↔
      [a, b] <:+: l.toList :=
    DocComment.pair_infix_margin hindent hspace hblank l.toList
  rw [commentBody, List.forall_mem_map, ← DocComment.pair_infix_body ha hb]
  simp [hline]

/-- Behind the comment its own levels are closed, and those that its text opens are not. -/
theorem afterComment_comment (s : String) (rest : List Char) :
    afterComment ((comment s).toList ++ rest) =
      within (openedIn (commentBody s)) (' ' :: '*' :: '/' :: rest) := by
  have hclosing : ∀ l ∈ commentBody s, ¬ ['*', '/'] <:+: l :=
    (not_pair_infix_commentBody (by decide) (by decide) (by decide) (by decide) s).mpr
      (DocComment.not_closing_maskClosing s.toList)
  have hbody := within_terminated hclosing 0 (' ' :: '*' :: '/' :: rest)
  rw [Nat.zero_add] at hbody
  rw [← hbody, toList_comment]
  show within 0 ('*' :: '\n' :: ((terminated (commentBody s) ++ [' ', '*', '/']) ++ rest)) = _
  rw [within_skip (by simp) (by simp), within_skip (by simp) (by simp), List.append_assoc]
  rfl

theorem opened_commentBody (s : String) :
    openedIn (commentBody s) = 0 ↔ ¬ DocComment.Opens s.toList := by
  rw [← DocComment.opens_maskClosing,
    ← not_pair_infix_commentBody (by decide) (by decide) (by decide) (by decide) s]
  simp [openedIn_eq_zero_iff, opened_eq_zero_iff]

theorem afterComment_of_not_opens {s : String} (h : ¬ DocComment.Opens s.toList)
    (rest : List Char) : afterComment ((comment s).toList ++ rest) = some rest := by
  rw [afterComment_comment, (opened_commentBody s).mpr h, within_skip (by simp) (by simp)]
  rfl

theorem afterComment_of_opens {s : String} (h : DocComment.Opens s.toList) :
    ∃ depth, ∀ rest, afterComment ((comment s).toList ++ rest) = within depth rest := by
  have hsome : openedIn (commentBody s) ≠ 0 :=
    fun hnone => (opened_commentBody s).mp hnone h
  obtain ⟨depth, hdepth⟩ := Nat.exists_eq_succ_of_ne_zero hsome
  refine ⟨depth, fun rest => ?_⟩
  rw [afterComment_comment, hdepth, within_skip (by simp) (by simp)]
  rfl

theorem toList_documented (package : List String) (s : String) {object : List String}
    (h : object ≠ []) : (joinLines (package ++ DocComment.lines "" s ++ object)).toList =
      terminated (package.map String.toList) ++
        ((comment s).toList ++ '\n' :: (joinLines object).toList) := by
  have hcomment : terminated ((DocComment.lines "" s).map String.toList) =
      (comment s).toList ++ ['\n'] := by
    rw [← toList_joinLines (by simp [DocComment.lines])]
    simp [joinLines, comment]
  rw [toList_joinLines (by simp [h]), List.map_append, List.map_append, terminated_append,
    terminated_append, hcomment, toList_joinLines h]
  simp

end Kotlin

namespace DocComment

theorem lineComments_stay {s l : String} (h : l ∈ lineComments s) :
    ['/', '/'] <+: l.toList ∧ ∀ c ∈ l.toList, isLineBreak c = false := by
  obtain ⟨line, hline, rfl⟩ := List.mem_map.mp h
  obtain ⟨cs, hcs, rfl⟩ := List.mem_map.mp hline
  have hslashes : (trimEnd ("// " ++ String.ofList cs)).toList =
      '/' :: '/' :: trimRight (' ' :: cs) := by
    have htrim : (trimEnd ("// " ++ String.ofList cs)).toList =
        trimRight ('/' :: '/' :: ' ' :: cs) := by simp [trimEnd]
    rw [htrim, trimRight_cons (by decide), trimRight_cons (by decide)]
  rw [hslashes]
  constructor
  · exact List.prefix_append _ _
  · intro c hc
    rcases List.mem_cons.mp hc with rfl | hc
    · decide
    · rcases List.mem_cons.mp hc with rfl | hc
      · decide
      · rcases List.mem_cons.mp (mem_of_mem_trimRight hc) with rfl | hc
        · decide
        · exact not_isLineBreak_of_mem_splitLines hcs c hc

end DocComment

namespace Kotlin

/-- Behind the documentation of an object all code is live if the documentation opens no comment
of its own, and in a comment otherwise. The documentation of a file stands in line comments. -/
theorem documentation_contained {r : Request} {ds : List Declaration} {text s : String}
    (h : assemble r ds = .ok text) (hs : r.documentation = some s) :
    (r.topLevel = false → ∃ name package declarations, identifier r.className = .ok name ∧
      packageLines r = .ok package ∧ collect (declare r.visibility) ds = .ok declarations ∧
      text.toList = terminated (package.map String.toList) ++ ((comment s).toList ++
        '\n' :: (joinLines (objectLines r.visibility name declarations)).toList) ∧
      (¬ DocComment.Opens s.toList → ∀ rest,
        afterComment ((comment s).toList ++ rest) = some rest) ∧
      (DocComment.Opens s.toList → ∃ depth, ∀ rest,
        afterComment ((comment s).toList ++ rest) = within depth rest)) ∧
    (r.topLevel = true → (∃ package declarations, packageLines r = .ok package ∧
        collect (declare r.visibility) ds = .ok declarations ∧
        text = joinLines (DocComment.lineComments s ++ [""] ++ package ++
          separated declarations)) ∧
      ∀ l ∈ DocComment.lineComments s,
        ['/', '/'] <+: l.toList ∧ '\n' ∉ l.toList ∧ '\r' ∉ l.toList) := by
  obtain ⟨name, hname, h⟩ := bind_eq_ok_iff.mp h
  obtain ⟨package, hpackage, h⟩ := bind_eq_ok_iff.mp h
  obtain ⟨declarations, hdeclarations, h⟩ := bind_eq_ok_iff.mp h
  rw [hs] at h
  constructor
  · intro htop
    rw [if_neg (by simp [htop])] at h
    obtain rfl := Except.ok.inj h
    have hobject : objectLines r.visibility name declarations ≠ [] := by
      unfold objectLines
      split <;> simp
    exact ⟨name, package, declarations, hname, hpackage, hdeclarations,
      toList_documented package s hobject, afterComment_of_not_opens, afterComment_of_opens⟩
  · intro htop
    rw [if_pos htop] at h
    obtain rfl := Except.ok.inj h
    refine ⟨⟨package, declarations, hpackage, hdeclarations, rfl⟩, fun l hl => ?_⟩
    obtain ⟨hslashes, hbreaks⟩ := DocComment.lineComments_stay hl
    refine ⟨hslashes, fun hmem => ?_, fun hmem => ?_⟩
    · cases hbreaks _ hmem
    · cases hbreaks _ hmem

/-- A request for an object with documentation and nothing else. -/
def documented (s : String) : Request :=
  { Request.ofConstants (.parse "out") [] with documentation := some s }

/-- Overlapping marks neither close the comment nor open another. -/
theorem documentation_contained_overlapping :
    assemble (documented "a */ b\n**//") [] =
      .ok "/**\n * a *&#47; b\n * **&#47;/\n */\ninternal object BuildConfig\n" ∧
    ¬ DocComment.Opens "a */ b\n**//".toList ∧
    ∀ rest, afterComment ((comment "a */ b\n**//").toList ++ rest) = some rest := by
  have hassemble : assemble (documented "a */ b\n**//") [] =
      .ok "/**\n * a *&#47; b\n * **&#47;/\n */\ninternal object BuildConfig\n" := rfl
  have hopens : ¬ DocComment.Opens "a */ b\n**//".toList := by
    rw [← DocComment.opens_maskClosing, ← opened_eq_zero_iff]
    rfl
  obtain ⟨hobject, -⟩ := documentation_contained hassemble rfl
  obtain ⟨-, -, -, -, -, -, -, hlive, -⟩ := hobject rfl
  exact ⟨hassemble, hopens, hlive hopens⟩

/-- A slash before a star: the rest of the file is in the comment. -/
theorem documentation_swallows :
    assemble (documented "src/*") [] =
      .ok "/**\n * src/*\n */\ninternal object BuildConfig\n" ∧
    (∀ rest, afterComment ((comment "src/*").toList ++ rest) = within 0 rest) ∧
    afterComment "/**\n * src/*\n */\ninternal object BuildConfig\n".toList = none := by
  refine ⟨rfl, fun rest => rfl, ?_⟩
  decide

end Kotlin

end BuildConstants
