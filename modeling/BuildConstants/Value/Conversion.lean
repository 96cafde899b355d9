import BuildConstants.Fault

/-!
# Numbers from data

Conversion to a double or an integer, as far as a datum has one.
-/

namespace BuildConstants

open Number Text

namespace Datum

def toDouble (d : Datum) : Except NumberError Binary64 :=
  match d with
  | float x => .ok x
  | bool b => .ok (Binary64.ofRatio false (if b then 1 else 0) 1)
  | int n => match Binary64.ofInt? n with
    | some x => .ok x
    | none => .error .tooLarge
  | text s => (readDouble? s.toList).elim (.error (.notDouble d.written)) .ok
  | member m => (readDouble? m.name.toList).elim (.error (.notDouble d.written)) .ok
  | bytes octets => (readDouble? (octetChars octets)).elim (.error (.notDouble d.written)) .ok
  | _ => .error (.notNumeric d.typeName)

/-- Doubles lose their fraction; texts are read in base ten. -/
def toInteger? : Datum → Option Int
  | bool b => some (if b then 1 else 0)
  | int n => some n
  | float x => x.truncate?
  | text s => readInteger? s.toList
  | bytes octets => readInteger? (octetChars octets)
  | _ => none

end Datum

end BuildConstants
