import BuildConstants.Number.Integer
import BuildConstants.Number.Shortest

/-!
# Decimal spelling of doubles

Writing takes the shortest digits and a layout; reading rounds the exact decimal value.
-/

namespace BuildConstants.Number

/-- How digits and exponent become a text. Exponents outside the positional range use
scientific notation with a sign and at least `exponentWidth` digits. -/
structure Layout where
  leastPositional : Int
  greatestPositional : Int
  exponentWidth : Nat
  infinity : String
  notANumber : String

/-- Exponents -4 to 15 are positional, and whole numbers keep `.0`. -/
def Layout.double : Layout := ⟨-4, 15, 2, "inf", "nan"⟩

def zeros (n : Nat) : List Char :=
  List.replicate n '0'

def dropTrailingZeros (ds : List Char) : List Char :=
  (ds.reverse.dropWhile (· == '0')).reverse

/-- Digits with the point after `point` of them; the point may lie outside of the digits. -/
def positional (ds : List Char) (point : Int) : List Char :=
  if point ≤ 0 then '0' :: '.' :: (zeros (-point).toNat ++ ds)
  else if (ds.length : Int) ≤ point then ds ++ zeros (point.toNat - ds.length) ++ ['.', '0']
  else ds.take point.toNat ++ '.' :: ds.drop point.toNat

def Layout.scientific (l : Layout) (ds : List Char) (exponent : Int) : List Char :=
  let digits := (Nat.repr exponent.natAbs).toList
  let sign := if exponent < 0 then '-' else '+'
  let mantissa := match ds with
    | [] => ['0']
    | [d] => [d]
    | d :: rest => d :: '.' :: rest
  mantissa ++ 'e' :: sign :: (zeros (l.exponentWidth - digits.length) ++ digits)

def Layout.magnitude (l : Layout) (units : Nat) : List Char :=
  if units = 0 then ['0', '.', '0']
  else
    let d := shortest units
    let ds := (Nat.repr d.digits).toList
    let exponent := d.exponent + ds.length - 1
    if l.leastPositional ≤ exponent && exponent ≤ l.greatestPositional then
      positional (dropTrailingZeros ds) (exponent + 1)
    else l.scientific (dropTrailingZeros ds) exponent

def Layout.write (l : Layout) : Binary64 → String
  | .nan => l.notANumber
  | .infinite s => (if s then "-" else "") ++ l.infinity
  | .finite s units => (if s then "-" else "") ++ String.ofList (l.magnitude units)

def Binary64.text (x : Binary64) : String :=
  Layout.double.write x

def isAsciiDigit (c : Char) : Bool :=
  48 ≤ c.toNat && c.toNat ≤ 57

def dropUnderscores? (afterDigit : Bool) : List Char → Option (List Char)
  | [] => some []
  | '_' :: d :: rest =>
    if afterDigit && isAsciiDigit d then (dropUnderscores? true rest).map (d :: ·) else none
  | '_' :: [] => none
  | c :: rest => (dropUnderscores? (isAsciiDigit c) rest).map (c :: ·)

def naturalOf (ds : List Char) : Nat :=
  ds.foldl (fun n c => n * 10 + (c.toNat - 48)) 0

def readExponent : List Char → Option Int
  | [] => some 0
  | e :: rest =>
    if e = 'e' || e = 'E' then
      readSigned (fun ds => if ds.isEmpty || !ds.all isAsciiDigit then none
        else some (naturalOf ds)) rest
    else none

/-- `digits · 10 ^ exponent`; exponents far out of range are decided by their size. -/
def ofDecimal (negative : Bool) (digits : Nat) (exponent : Int) : Binary64 :=
  if digits = 0 then .finite negative 0
  else
    let size := exponent + (Nat.repr digits).length
    if 400 < size then .infinite negative
    else if size < -400 then .finite negative 0
    else Binary64.ofRatio negative (digits * Nat.pow 10 exponent.toNat)
      (Nat.pow 10 (-exponent).toNat)

/-- Digits with at most one point among or beside them, then an optional exponent. -/
def readDecimal (negative : Bool) (cs : List Char) : Option Binary64 :=
  let whole := cs.takeWhile isAsciiDigit
  let (fraction, rest) := match cs.dropWhile isAsciiDigit with
    | '.' :: r => (r.takeWhile isAsciiDigit, r.dropWhile isAsciiDigit)
    | r => ([], r)
  if whole.isEmpty && fraction.isEmpty then none
  else (readExponent rest).map fun e =>
    ofDecimal negative (naturalOf (whole ++ fraction)) (e - fraction.length)

def readMagnitude (negative : Bool) (cs : List Char) : Option Binary64 :=
  let word := String.ofList (cs.map Char.toLower)
  if word = "inf" || word = "infinity" then some (.infinite negative)
  else if word = "nan" then some .nan
  else readDecimal negative cs

def readSignedDouble : List Char → Option Binary64
  | '-' :: rest => readMagnitude true rest
  | '+' :: rest => readMagnitude false rest
  | cs => readMagnitude false cs

def readDouble? (cs : List Char) : Option Binary64 :=
  (dropUnderscores? false (trimAscii (cs.map asciiForm))).bind readSignedDouble

end BuildConstants.Number
