/-!
# Blanks

A blank is any character that Unicode counts as white space, and the four information
separators. Trimming removes blanks from the ends of a text.
-/

namespace BuildConstants.Text

def isBlank (c : Char) : Bool :=
  let n := c.toNat
  (9 ≤ n && n ≤ 13) || (28 ≤ n && n ≤ 32) || n == 0x85 || n == 0xa0 || n == 0x1680 ||
    (0x2000 ≤ n && n ≤ 0x200a) || n == 0x2028 || n == 0x2029 || n == 0x202f || n == 0x205f ||
    n == 0x3000

def trimLeft (cs : List Char) : List Char :=
  cs.dropWhile isBlank

def trimRight (cs : List Char) : List Char :=
  (cs.reverse.dropWhile isBlank).reverse

def trim (s : String) : String :=
  String.ofList (trimRight (trimLeft s.toList))

def trimEnd (s : String) : String :=
  String.ofList (trimRight s.toList)

theorem trimLeft_eq {bs cs : List Char} (hb : ∀ c ∈ bs, isBlank c = true)
    (h : ∀ c ∈ cs.head?, isBlank c = false) : trimLeft (bs ++ cs) = cs := by
  rw [trimLeft, List.dropWhile_append_of_pos hb]
  cases cs with
  | nil => rfl
  | cons c rest => exact List.dropWhile_cons_of_neg (by simp [h c rfl])

theorem trimRight_eq {bs cs : List Char} (hb : ∀ c ∈ bs, isBlank c = true)
    (h : ∀ c ∈ cs.getLast?, isBlank c = false) : trimRight (cs ++ bs) = cs := by
  have hb' : ∀ c ∈ bs.reverse, isBlank c = true := by simpa using hb
  have h' : ∀ c ∈ cs.reverse.head?, isBlank c = false := by simpa using h
  rw [trimRight, List.reverse_append, ← trimLeft, trimLeft_eq hb' h', List.reverse_reverse]

theorem split_trimLeft (cs : List Char) : ∃ bs, (∀ c ∈ bs, isBlank c = true) ∧
    cs = bs ++ trimLeft cs ∧ ∀ c ∈ (trimLeft cs).head?, isBlank c = false := by
  refine ⟨cs.takeWhile isBlank, List.all_eq_true.mp List.all_takeWhile,
    List.takeWhile_append_dropWhile.symm, ?_⟩
  intro c hc
  have hhead := List.head?_dropWhile_not isBlank cs
  rw [← trimLeft, hc] at hhead
  exact hhead

theorem split_trimRight (cs : List Char) : ∃ bs, (∀ c ∈ bs, isBlank c = true) ∧
    cs = trimRight cs ++ bs ∧ ∀ c ∈ (trimRight cs).getLast?, isBlank c = false := by
  obtain ⟨bs, hb, hcs, hfirst⟩ := split_trimLeft cs.reverse
  refine ⟨bs.reverse, by simpa using hb, ?_, ?_⟩
  · rw [trimRight, ← List.reverse_append, ← trimLeft, ← hcs, List.reverse_reverse]
  · rwa [trimRight, List.getLast?_reverse, ← trimLeft]

end BuildConstants.Text
