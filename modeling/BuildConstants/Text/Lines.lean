/-!
# Lines of a text

A line ends at any of the Unicode line boundaries; CR LF is one boundary. A text that ends with a
boundary has no empty line after it, and the empty text has no lines.
-/

namespace BuildConstants.Text

def isLineBreak (c : Char) : Bool :=
  let n := c.toNat
  (10 ≤ n && n ≤ 13) || (28 ≤ n && n ≤ 30) || n == 0x85 || n == 0x2028 || n == 0x2029

def consToFirst (c : Char) : List (List Char) → List (List Char)
  | [] => [[c]]
  | l :: ls => (c :: l) :: ls

def splitLines : List Char → List (List Char)
  | [] => []
  | '\r' :: '\n' :: rest => [] :: splitLines rest
  | c :: rest => if isLineBreak c then [] :: splitLines rest else consToFirst c (splitLines rest)

def lines (s : String) : List String :=
  (splitLines s.toList).map String.ofList

theorem not_isLineBreak_of_mem_splitLines {cs l : List Char} (h : l ∈ splitLines cs) :
    ∀ c ∈ l, isLineBreak c = false := by
  fun_induction splitLines cs generalizing l with
  | case1 => simp at h
  | case2 rest ih =>
    rcases List.mem_cons.1 h with rfl | h
    · simp
    · exact ih h
  | case3 c rest hc _ ih =>
    rcases List.mem_cons.1 h with rfl | h
    · simp
    · exact ih h
  | case4 c rest _ hc ih =>
    cases hr : splitLines rest with
    | nil =>
      simp only [hr, consToFirst, List.mem_singleton] at h
      subst h
      simpa using hc
    | cons l' ls =>
      simp only [hr, consToFirst, List.mem_cons] at h
      rcases h with rfl | h
      · intro d hd
        rcases List.mem_cons.1 hd with rfl | hd
        · simpa using hc
        · exact ih (by simp [hr]) d hd
      · exact ih (by simp [hr, h])

end BuildConstants.Text
