import BuildConstants.Document.Node.Basic

/-!
# Implicit tags

The tag of a plain scalar follows from its text.
-/

namespace BuildConstants.Document.Implicit

def isDigitOrUnderscore (c : Char) : Bool :=
  c.isDigit || c == '_'

def isHexDigit (c : Char) : Bool :=
  c.isDigit || ('a' ≤ c && c ≤ 'f') || ('A' ≤ c && c ≤ 'F')

def allOf (p : Char → Bool) (cs : List Char) : Bool :=
  !cs.isEmpty && cs.all p

def withoutSign : List Char → List Char
  | '+' :: rest => rest
  | '-' :: rest => rest
  | cs => cs

def isOctal (c : Char) : Bool :=
  ('0' ≤ c && c ≤ '7') || c == '_'

/-- Binary, octal, decimal or hexadecimal digits without a sign. -/
def isNatural : List Char → Bool
  | '0' :: 'b' :: rest => allOf (fun c => c == '0' || c == '1' || c == '_') rest
  | '0' :: 'o' :: rest => allOf isOctal rest
  | '0' :: 'x' :: rest => allOf (fun c => isHexDigit c || c == '_') rest
  | cs => allOf isDigitOrUnderscore cs

def startsNumber : List Char → Bool
  | c :: _ => c.isDigit || c == '+' || c == '-'
  | [] => false

def isInteger (cs : List Char) : Bool :=
  startsNumber cs && isNatural (withoutSign cs)

/-- An exponent with its mark; the sign may be required. -/
def isExponent (signed : Bool) : List Char → Bool
  | c :: rest =>
    (c == 'e' || c == 'E') && allOf Char.isDigit (withoutSign rest)
      && (!signed || withoutSign rest != rest)
  | [] => false

def isOptionalExponent (signed : Bool) (cs : List Char) : Bool :=
  cs.isEmpty || isExponent signed cs

/-- Digits with a point, an exponent or both. -/
def isDecimal (cs : List Char) : Bool :=
  match cs with
  | '.' :: rest =>
    !(rest.takeWhile isDigitOrUnderscore).isEmpty
      && isOptionalExponent true (rest.dropWhile isDigitOrUnderscore)
  | c :: _ => c.isDigit && match cs.dropWhile isDigitOrUnderscore with
    | '.' :: rest => isOptionalExponent false (rest.dropWhile isDigitOrUnderscore)
    | rest => isExponent false rest
  | [] => false

def infinities : List (List Char) := [".inf".toList, ".Inf".toList, ".INF".toList]

def notNumbers : List (List Char) := [".nan".toList, ".NaN".toList, ".NAN".toList]

def isDouble (cs : List Char) : Bool :=
  notNumbers.contains cs || infinities.contains (withoutSign cs) || isDecimal (withoutSign cs)

/-- Four, two and two digits with hyphens between them. -/
def isDate (cs : List Char) : Bool :=
  match cs with
  | [a, b, c, d, '-', e, f, '-', g, h] => [a, b, c, d, e, f, g, h].all Char.isDigit
  | _ => false

def booleans : List String := ["true", "True", "TRUE", "false", "False", "FALSE"]

def nulls : List String := ["", "~", "null", "Null", "NULL"]

def tag (s : String) : Tag :=
  let cs := s.toList
  if booleans.contains s then .bool
  else if isDouble cs then .float
  else if isInteger cs then .int
  else if s = "<<" then .merge
  else if nulls.contains s then .null
  else if isDate cs then .date
  else if s = "=" then .default
  else .text

end BuildConstants.Document.Implicit
