import BuildConstants.Text.Blank
import BuildConstants.Text.Lines

/-!
# Documentation comments

The text of a comment cannot close it: the closing mark is written with a character reference.
Every line ends without blanks.
-/

namespace BuildConstants.DocComment

open Text

def replacement : List Char := "*&#47;".toList

def maskClosing : List Char → List Char
  | [] => []
  | '*' :: '/' :: rest => replacement ++ maskClosing rest
  | c :: rest => c :: maskClosing rest

/-- The lines of the text; an empty text has one empty line. -/
def body (s : String) : List String :=
  match splitLines (maskClosing s.toList) with
  | [] => [""]
  | ls => ls.map String.ofList

def lines (indent s : String) : List String :=
  (indent ++ "/**") :: ((body s).map (fun l => trimEnd (indent ++ " * " ++ l)) ++ [indent ++ " */"])

/-- Line comments, without the masking that block comments need. -/
def lineComments (s : String) : List String :=
  (Text.lines s).map fun l => trimEnd ("// " ++ l)

theorem length_lines (indent s : String) : (lines indent s).length = (body s).length + 2 := by
  simp [lines]

end BuildConstants.DocComment
