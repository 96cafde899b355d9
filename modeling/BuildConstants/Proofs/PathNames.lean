import BuildConstants.Path

/-!
# Paths of names

A name is a part that a path keeps: it is neither empty nor `.`, and it holds no slash. A path of
names is what reading a text gives, and it is read back from its own text. Joining a name to a path
adds just that part.
-/

namespace BuildConstants

namespace Text

theorem splitAt_cons_self (separator : Char) (cs : List Char) :
    splitAt separator (separator :: cs) = [] :: splitAt separator cs := by
  simp [splitAt]

theorem splitAt_append {separator : Char} {cs : List Char} (h : separator ∉ cs)
    (rest : List Char) :
    splitAt separator (cs ++ separator :: rest) = cs :: splitAt separator rest := by
  induction cs with
  | nil => exact splitAt_cons_self separator rest
  | cons c cs ih =>
    obtain ⟨hc, hcs⟩ := List.ne_and_not_mem_of_not_mem_cons h
    rw [List.cons_append, splitAt, if_neg (Ne.symm hc), ih hcs, consToFirst]

theorem splitAt_of_not_mem {separator : Char} {cs : List Char} (h : separator ∉ cs) :
    splitAt separator cs = [cs] := by
  induction cs with
  | nil => rfl
  | cons c cs ih =>
    obtain ⟨hc, hcs⟩ := List.ne_and_not_mem_of_not_mem_cons h
    rw [splitAt, if_neg (Ne.symm hc), ih hcs, consToFirst]

theorem not_mem_of_mem_splitAt {separator : Char} {cs part : List Char}
    (h : part ∈ splitAt separator cs) : separator ∉ part := by
  induction cs generalizing part with
  | nil =>
    obtain rfl := List.mem_singleton.mp h
    exact List.not_mem_nil
  | cons c cs ih =>
    rw [splitAt] at h
    split at h
    · rcases List.mem_cons.mp h with rfl | h
      · exact List.not_mem_nil
      · exact ih h
    · rename_i hc
      obtain ⟨first, others, hsplit⟩ := List.exists_cons_of_ne_nil (splitAt_ne_nil separator cs)
      rw [hsplit, consToFirst] at h
      rw [hsplit] at ih
      rcases List.mem_cons.mp h with rfl | h
      · exact List.not_mem_cons_of_ne_of_not_mem (Ne.symm hc) (ih List.mem_cons_self)
      · exact ih (List.mem_cons_of_mem first h)

theorem intercalate_splitAt (separator : Char) (cs : List Char) :
    List.intercalate [separator] (splitAt separator cs) = cs := by
  induction cs with
  | nil => rfl
  | cons c cs ih =>
    obtain ⟨first, others, hsplit⟩ := List.exists_cons_of_ne_nil (splitAt_ne_nil separator cs)
    rw [splitAt]
    split
    · rename_i hc
      rw [hsplit] at ih ⊢
      rw [List.intercalate_cons_cons, ih, hc]
      rfl
    · rw [hsplit] at ih ⊢
      rw [consToFirst]
      cases others with
      | nil =>
        rw [List.intercalate_singleton] at ih ⊢
        rw [ih]
      | cons second others =>
        rw [List.intercalate_cons_cons] at ih ⊢
        rw [List.cons_append, List.cons_append, ← ih]

theorem split_inj {separator : Char} {s s' : String}
    (h : split separator s = split separator s') : s = s' := by
  have hparts : splitAt separator s.toList = splitAt separator s'.toList :=
    (List.map_inj_right fun _ _ => String.ofList_inj.mp).mp h
  have hjoined := congrArg (List.intercalate [separator]) hparts
  rw [intercalate_splitAt, intercalate_splitAt] at hjoined
  exact String.toList_injective hjoined

theorem not_mem_of_mem_split {separator : Char} {s part : String}
    (h : part ∈ split separator s) : separator ∉ part.toList := by
  obtain ⟨cs, hcs, rfl⟩ := List.mem_map.mp h
  rw [String.toList_ofList]
  exact not_mem_of_mem_splitAt hcs

theorem splitAt_intercalate (separator : Char) (first : List Char) (others : List (List Char))
    (h : ∀ part ∈ first :: others, separator ∉ part) :
    splitAt separator (List.intercalate [separator] (first :: others)) = first :: others := by
  induction others generalizing first with
  | nil =>
    rw [List.intercalate_singleton]
    exact splitAt_of_not_mem (h first List.mem_cons_self)
  | cons second others ih =>
    rw [List.intercalate_cons_cons, List.append_assoc, List.singleton_append,
      splitAt_append (h first List.mem_cons_self),
      ih second fun part hpart => h part (List.mem_cons_of_mem first hpart)]

end Text

namespace Path

open Text

/-- A part that a path keeps when it is read. -/
structure IsName (s : String) : Prop where
  ne_empty : s ≠ ""
  ne_here : s ≠ "."
  no_slash : '/' ∉ s.toList

/-- Every part is a name. -/
def Normal (p : Path) : Prop :=
  ∀ part ∈ p.parts, IsName part

theorem normal_parse (s : String) : (parse s).Normal := by
  intro part hpart
  obtain ⟨hmem, hkept⟩ := List.mem_filter.mp hpart
  simp only [bne_iff_ne, ne_eq, Bool.and_eq_true] at hkept
  exact ⟨hkept.1, hkept.2, not_mem_of_mem_split hmem⟩

theorem Normal.join {p q : Path} (hp : p.Normal) (hq : q.Normal) : (p.join q).Normal := by
  rw [Path.join]
  split
  · intro part hpart
    rcases List.mem_append.mp hpart with h | h
    · exact hp part h
    · exact hq part h
  · exact hq

theorem isName_filter {parts : List String} (h : ∀ part ∈ parts, IsName part) :
    (parts.filter fun part => part != "" && part != ".") = parts := by
  refine List.filter_eq_self.mpr fun part hpart => ?_
  simp [(h part hpart).ne_empty, (h part hpart).ne_here]

theorem split_of_isName {s : String} (h : IsName s) : split '/' s = [s] := by
  rw [split, splitAt_of_not_mem h.no_slash, List.map_singleton, String.ofList_toList]

theorem rootOf_of_not_slash {cs : List Char} (h : cs.head? ≠ some '/') :
    rootOf cs = .relative := by
  cases cs with
  | nil => rfl
  | cons c cs =>
    have hc : (c == '/') = false := by
      rw [beq_eq_false_iff_ne]
      exact fun hc => h (by rw [hc]; rfl)
    rw [rootOf, List.takeWhile_cons_of_neg (by simp [hc])]
    rfl

theorem IsName.head?_ne {s : String} (h : IsName s) : s.toList.head? ≠ some '/' :=
  fun hhead => h.no_slash (List.mem_of_mem_head? hhead)

theorem parse_of_isName {s : String} (h : IsName s) : parse s = ⟨.relative, [s]⟩ := by
  have hparts : ([s].filter fun part => part != "" && part != ".") = [s] :=
    isName_filter (List.forall_mem_singleton.mpr h)
  rw [parse, split_of_isName h, hparts, rootOf_of_not_slash h.head?_ne]

theorem child_of_isName {s : String} (h : IsName s) (p : Path) :
    p.child s = ⟨p.root, p.parts ++ [s]⟩ := by
  rw [child, parse_of_isName h, join_relative rfl]

theorem foldl_child {names : List String} (h : ∀ name ∈ names, IsName name) (p : Path) :
    names.foldl child p = ⟨p.root, p.parts ++ names⟩ := by
  induction names generalizing p with
  | nil => rw [List.foldl_nil, List.append_nil]
  | cons name names ih =>
    rw [List.foldl_cons, child_of_isName (h name List.mem_cons_self),
      ih fun n hn => h n (List.mem_cons_of_mem name hn), List.append_assoc, List.singleton_append]

/-- What stands behind the slashes of the root. -/
def relativeText (p : Path) : List Char :=
  List.intercalate ['/'] (p.parts.map String.toList)

theorem toList_text {p : Path} (h : p.root ≠ .relative ∨ p.parts ≠ []) :
    p.text.toList = (rootText p.root).toList ++ p.relativeText := by
  have hempty : (decide (p.root = .relative) && p.parts.isEmpty) = false := by
    rw [Bool.and_eq_false_iff, decide_eq_false_iff_not, List.isEmpty_eq_false_iff]
    exact h
  rw [text, hempty]
  simp [relativeText, String.toList_intercalate]

theorem Normal.head?_relativeText {p : Path} (h : p.Normal) :
    p.relativeText.head? ≠ some '/' := by
  rw [relativeText]
  cases hparts : p.parts with
  | nil => simp
  | cons first others =>
    have hfirst := h first (hparts ▸ List.mem_cons_self)
    obtain ⟨c, cs, hcs⟩ := List.exists_cons_of_ne_nil
      (fun hnil => hfirst.ne_empty (String.toList_eq_nil_iff.mp hnil))
    have hc := hfirst.head?_ne
    rw [hcs] at hc
    cases others with
    | nil => simpa [hcs] using hc
    | cons second others => simpa [hcs, List.intercalate_cons_cons] using hc

theorem Normal.split_relativeText {p : Path} (h : p.Normal) :
    (((splitAt '/' p.relativeText).map String.ofList).filter
      fun part => part != "" && part != ".") = p.parts := by
  rw [relativeText]
  cases hparts : p.parts with
  | nil => decide
  | cons first others =>
    have hnames : ∀ part ∈ first :: others, IsName part := hparts ▸ h
    have hsplit := splitAt_intercalate '/' first.toList (others.map String.toList) (by
        intro part hpart
        rw [← List.map_cons] at hpart
        obtain ⟨name, hname, rfl⟩ := List.mem_map.mp hpart
        exact (hnames name hname).no_slash)
    rw [List.map_cons, hsplit, ← List.map_cons, List.map_map]
    have hid : String.ofList ∘ String.toList = id := funext fun s => String.ofList_toList
    rw [hid, List.map_id]
    exact isName_filter hnames

theorem rootOf_append {cs : List Char} (h : cs.head? ≠ some '/') (root : PathRoot) :
    rootOf ((rootText root).toList ++ cs) = root := by
  have htake : cs.takeWhile (· == '/') = [] := by
    cases cs with
    | nil => rfl
    | cons c cs =>
      refine List.takeWhile_cons_of_neg ?_
      rw [beq_iff_eq]
      exact fun hc => h (by rw [hc]; rfl)
  cases root with
  | relative => exact rootOf_of_not_slash h
  | slash | doubleSlash => simp [rootOf, rootText, htake]

/-- A path of names is read back from its text. -/
theorem parse_text {p : Path} (h : p.Normal) : parse p.text = p := by
  by_cases hnone : p = ⟨.relative, []⟩
  · subst hnone
    decide
  · have hsome : p.root ≠ .relative ∨ p.parts ≠ [] := by
      by_cases hroot : p.root = .relative
      · exact .inr fun hparts => hnone (by rw [← hroot, ← hparts])
      · exact .inl hroot
    have htext := toList_text hsome
    -- The slashes of the root give empty parts, which are dropped.
    have hparts : ((splitAt '/' ((rootText p.root).toList ++ p.relativeText)).map
        String.ofList).filter (fun part => part != "" && part != ".") = p.parts := by
      cases p.root with
      | relative => exact h.split_relativeText
      | slash | doubleSlash => simp [rootText, splitAt_cons_self, h.split_relativeText]
    rw [parse, split, htext, rootOf_append h.head?_relativeText, hparts]

end Path

end BuildConstants
