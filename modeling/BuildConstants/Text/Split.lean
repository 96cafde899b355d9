import BuildConstants.Text.Lines

/-!
# Parts between separators

A text with n separators has n + 1 parts, empty ones included.
-/

namespace BuildConstants.Text

def splitAt (separator : Char) : List Char → List (List Char)
  | [] => [[]]
  | c :: rest =>
    if c = separator then [] :: splitAt separator rest
    else consToFirst c (splitAt separator rest)

def split (separator : Char) (s : String) : List String :=
  (splitAt separator s.toList).map String.ofList

theorem consToFirst_ne_nil (c : Char) (ls : List (List Char)) : consToFirst c ls ≠ [] := by
  cases ls <;> simp [consToFirst]

theorem splitAt_ne_nil (separator : Char) (cs : List Char) : splitAt separator cs ≠ [] := by
  cases cs with
  | nil => simp [splitAt]
  | cons c rest => by_cases h : c = separator <;> simp [splitAt, h, consToFirst_ne_nil]

end BuildConstants.Text
