import BuildConstants.Text.Alphanumeric
import BuildConstants.Text.DecimalDigit

/-!
# Plain names

A plain name is a start character and then name characters. One line feed at the very end is
passed over, as it is where a pattern ends at the end of a line.
-/

namespace BuildConstants.Text

def withoutFinalBreak (cs : List Char) : List Char :=
  if cs.getLast? = some '\n' then cs.dropLast else cs

def isWordStart (c : Char) : Bool :=
  isWord c && !isDecimalDigit c

def isPlainName (start part : Char → Bool) (cs : List Char) : Bool :=
  match withoutFinalBreak cs with
  | [] => false
  | c :: rest => start c && rest.all part

end BuildConstants.Text
