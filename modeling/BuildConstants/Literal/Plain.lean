import BuildConstants.Value.Conversion
import BuildConstants.Value.Tagged

/-!
# Plain literals

A plain literal is written without quotes. Booleans, integers and floating numbers must hold a
value of their kind; other scalars stand as their display form.
-/

namespace BuildConstants.Literal

open Number

/-- The greatest finite single precision number: 24 ones in binary, below 2 ^ 128. -/
def floatMaxUnits : Nat := (Nat.pow 2 24 - 1) * Nat.pow 2 (104 + 1074)

/-- The smallest positive single precision number, 2 ^ -149. -/
def floatMinUnits : Nat := Nat.pow 2 (1074 - 149)

def fitsFloat : Binary64 → Bool
  | .finite _ units => units == 0 || (floatMinUnits ≤ units && units ≤ floatMaxUnits)
  | _ => false

def plainBoolean : Datum → Except Fault String
  | .bool b => .ok (if b then "true" else "false")
  | d => .error (.notBoolean d)

def plainInteger (kind : ScalarKind) : Datum → Except Fault String
  | .int n => if kind.inRange n then .ok (Int.repr n) else .error (.outOfRange n kind)
  | d => .error (.notInteger d)

def plainFloating (kind : ScalarKind) (d : Datum) : Except Fault String :=
  match d.toDouble with
  | .error e => .error (.number e)
  | .ok x =>
    if !x.isFinite then .error (.notFinite kind x)
    else if kind = .float && !fitsFloat x then .error (.beyondFloat x)
    else .ok x.text

def plain (s : Scalar) : Except Fault String :=
  match s.kind with
  | .boolean => plainBoolean s.value
  | .byte | .short | .int | .long => plainInteger s.kind s.value
  | .float | .double => plainFloating s.kind s.value
  | .char | .string | .other => .ok s.value.display

/-- The only character of a display form; it must be a single UTF-16 unit. -/
def charOf (d : Datum) : Except Fault Char :=
  match d.display.toList with
  | [c] => if Text.codePoint c ≤ 0xffff then .ok c else .error (.notSingleChar d.display)
  | _ => .error (.notSingleChar d.display)

end BuildConstants.Literal
