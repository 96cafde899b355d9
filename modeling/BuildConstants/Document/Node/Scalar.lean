import BuildConstants.Document.Node.Implicit
import BuildConstants.DocumentLibrary
import BuildConstants.Text.Lowercase

/-!
# Values of scalar nodes

The tag of a scalar says how its text is read. Underscores in numbers have no meaning.
-/

namespace BuildConstants.Document

open Number Text

/-- Words for truth values, in any case. -/
def truthWords : List (String × Bool) := [
  ("yes", true), ("no", false), ("y", true), ("n", false), ("true", true), ("false", false),
  ("on", true), ("off", false)]

def boolValue (s : String) : Checked Datum :=
  let word := lowercase s
  match truthWords.find? (·.1 == word) with
  | some (_, b) => .ok (.bool b)
  | none => .error (.unknownBoolean word)

def signAndRest : List Char → Bool × List Char
  | '-' :: rest => (true, rest)
  | '+' :: rest => (false, rest)
  | cs => (false, cs)

def dropUnderscores (s : String) : List Char :=
  s.toList.filter (· != '_')

/-- The base that a small letter chooses, and the digits. -/
def baseAndDigits : List Char → Nat × List Char
  | '0' :: 'b' :: ds => (2, ds)
  | '0' :: 'o' :: ds => (8, ds)
  | '0' :: 'x' :: ds => (16, ds)
  | ds => (10, ds)

def intValue (s : String) : Checked Datum :=
  let cs := dropUnderscores s
  if cs.isEmpty then .error .emptyNumber
  else
    let (negative, magnitude) := signAndRest cs
    let (base, ds) := baseAndDigits magnitude
    match readIntegerIn? base ds with
    | some n => .ok (.int (if negative then -n else n))
    | none => .error (.number (.notInteger base (String.ofList ds)))

def floatValue (s : String) : Checked Datum :=
  let cs := (lowercase (String.ofList (dropUnderscores s))).toList
  if cs.isEmpty then .error .emptyNumber
  else
    let (negative, magnitude) := signAndRest cs
    let read :=
      if magnitude = ".inf".toList then some (.infinite false)
      else if magnitude = ".nan".toList then some .nan
      else readDouble? magnitude
    match read with
    | some x => .ok (.float (if negative then x.negate else x))
    | none => .error (.number (.notDouble (quoted (String.ofList magnitude))))

def isLeapYear (year : Nat) : Bool :=
  year % 4 == 0 && (year % 100 != 0 || year % 400 == 0)

def daysIn (year month : Nat) : Nat :=
  if month = 2 then if isLeapYear year then 29 else 28
  else if [4, 6, 9, 11].contains month then 30
  else 31

def dateOf (year month day : Nat) : Checked Datum :=
  if year = 0 then .error (.yearOutOfRange year)
  else if month = 0 || 12 < month then .error .monthOutOfRange
  else if day = 0 || daysIn year month < day then .error .dayOutOfRange
  else .ok (.date year month day)

def dateValue (s : String) : Checked Datum :=
  if Implicit.isDate s.toList then
    let part (start count : Nat) := naturalOf ((s.toList.drop start).take count)
    dateOf (part 0 4) (part 5 2) (part 8 2)
  else .error .invalid

/-- The value of a scalar with its tag. Tags beyond the standard ones have constructors. -/
def scalarValue (constructors : List (String × Constructor)) (tag : Tag) (s : String)
    (line : Nat) : Checked Datum :=
  match tag with
  | .null => .ok .null
  | .bool => boolValue s
  | .int => intValue s
  | .float => floatValue s
  | .text => .ok (.text s)
  | .date => dateValue s
  | .other name => match constructors.find? (·.1 == name) with
    | some (_, construct) => (construct line s).map Scalar.datum
    | none => .error .invalid
  | .merge | .default | .sequence | .mapping | .set => .error .invalid

end BuildConstants.Document
