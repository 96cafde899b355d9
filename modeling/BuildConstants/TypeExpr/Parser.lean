import BuildConstants.Text.Alphanumeric
import BuildConstants.Text.Blank
import BuildConstants.Text.Quoted
import BuildConstants.TypeExpr.Basic

/-!
# Reading the shorthand of types

The grammar is

    Type ::= Name [ '<' Type (',' Type)* '>' ] [ '?' ] [ '[' ']' ]

with blanks before and after every token. A name is a maximal run of alphanumeric characters,
underscores, points and dollar signs. A reader stops at the first character that no accepted text
has at its place.
-/

namespace BuildConstants

open Text

inductive ShorthandProblem
  | expectedName
  | expectedClose
  | expectedBracket
  | unexpected (found : Char)
  deriving DecidableEq

/-- A text that is no type, with the position where reading stopped. -/
structure ShorthandError where
  text : String
  position : Nat
  problem : ShorthandProblem

def ShorthandProblem.message : ShorthandProblem → String
  | expectedName => "expected type name"
  | expectedClose => "expected '>'"
  | expectedBracket => "expected ']'"
  | unexpected c => "unexpected " ++ quoted (String.singleton c)

def ShorthandError.message (e : ShorthandError) : String :=
  "Invalid type '" ++ e.text ++ "' at " ++ Nat.repr e.position ++ ": " ++ e.problem.message

namespace TypeExpr

/-- Why reading stopped, and what was left. -/
structure Stop where
  problem : ShorthandProblem
  rest : List Char

def isNameChar (c : Char) : Bool :=
  isAlphanumeric c || c == '_' || c == '.' || c == '$'

def readQuestion (cs : List Char) : Bool × List Char :=
  match trimLeft cs with
  | '?' :: rest => (true, rest)
  | rest => (false, rest)

def readBrackets (cs : List Char) : Except Stop (Bool × List Char) :=
  match trimLeft cs with
  | '[' :: rest => match trimLeft rest with
    | ']' :: rest => .ok (true, rest)
    | rest => .error ⟨.expectedBracket, rest⟩
  | rest => .ok (false, rest)

/-- The two suffixes, each at most once and in this order. -/
def readSuffixes (name : String) (arguments : List TypeExpr) (cs : List Char) :
    Except Stop (TypeExpr × List Char) :=
  match readBrackets (readQuestion cs).2 with
  | .ok (array, rest) => .ok (⟨name, array, (readQuestion cs).1, arguments⟩, rest)
  | .error stop => .error stop

mutual

/-- Reads one type. Each level of fuel pays for a character, or for the step into an argument. -/
def readType : Nat → List Char → Except Stop (TypeExpr × List Char)
  | 0, cs => .error ⟨.expectedName, cs⟩
  | fuel + 1, cs =>
    let cs := trimLeft cs
    let name := cs.takeWhile isNameChar
    if name.isEmpty then .error ⟨.expectedName, cs⟩
    else match trimLeft (cs.dropWhile isNameChar) with
      | '<' :: rest => match readArguments fuel rest with
        | .ok (arguments, rest) => readSuffixes (String.ofList name) arguments rest
        | .error stop => .error stop
      | rest => readSuffixes (String.ofList name) [] rest

def readArguments : Nat → List Char → Except Stop (List TypeExpr × List Char)
  | 0, cs => .error ⟨.expectedName, cs⟩
  | fuel + 1, cs => match readType fuel cs with
    | .error stop => .error stop
    | .ok (t, rest) => match trimLeft rest with
      | ',' :: rest => match readArguments fuel rest with
        | .ok (ts, rest) => .ok (t :: ts, rest)
        | .error stop => .error stop
      | '>' :: rest => .ok ([t], rest)
      | rest => .error ⟨.expectedClose, rest⟩

end

def readWhole (cs : List Char) : Except Stop TypeExpr :=
  match readType (2 * cs.length + 1) cs with
  | .error stop => .error stop
  | .ok (t, rest) => match trimLeft rest with
    | [] => .ok t
    | c :: rest => .error ⟨.unexpected c, c :: rest⟩

def parse (s : String) : Except ShorthandError TypeExpr :=
  match readWhole s.toList with
  | .ok t => .ok t
  | .error stop => .error ⟨s, s.toList.length - stop.rest.length, stop.problem⟩

end TypeExpr

end BuildConstants
