import BuildConstants.Text.Blank
import BuildConstants.Text.DecimalDigit

/-!
# Reading integers

A reader takes digits of every script. Single underscores may stand between digits; a sign and
surrounding blanks are allowed. The tagged form first drops blanks at both ends and every
underscore, and also reads the bases 16, 8 and 2 with their usual marks; leading zeros belong to
base ten.
-/

namespace BuildConstants.Number

open Text

/-- Blanks and digits of every script in ASCII. Other characters beyond ASCII become one that
stands in no number. -/
def asciiForm (c : Char) : Char :=
  if c.toNat < 127 then c
  else if isBlank c then ' '
  else match decimalDigit? c with
    | some d => Char.ofNat (48 + d)
    | none => '?'

def isAsciiBlank (c : Char) : Bool :=
  c == ' ' || (9 ≤ c.toNat && c.toNat ≤ 13)

def trimAscii (cs : List Char) : List Char :=
  ((cs.dropWhile isAsciiBlank).reverse.dropWhile isAsciiBlank).reverse

def digitValue? (c : Char) : Option Nat :=
  let n := c.toNat
  if 48 ≤ n && n ≤ 57 then some (n - 48)
  else if 97 ≤ n && n ≤ 102 then some (n - 87)
  else if 65 ≤ n && n ≤ 70 then some (n - 55)
  else none

/-- Digits of the base; an underscore stands between two digits. -/
def readDigits (base value : Nat) (afterDigit : Bool) : List Char → Option Nat
  | [] => if afterDigit then some value else none
  | c :: rest =>
    if c = '_' then
      if afterDigit then readDigits base value false rest else none
    else match digitValue? c with
      | some d => if d < base then readDigits base (value * base + d) true rest else none
      | none => none

def readSigned (read : List Char → Option Nat) : List Char → Option Int
  | '-' :: rest => (read rest).map fun n => -(n : Int)
  | '+' :: rest => (read rest).map Int.ofNat
  | cs => (read cs).map Int.ofNat

def readNatural (base : Nat) (cs : List Char) : Option Nat :=
  readDigits base 0 false cs

def markBase? (m : Char) : Option Nat :=
  if m = 'x' || m = 'X' then some 16
  else if m = 'o' || m = 'O' then some 8
  else if m = 'b' || m = 'B' then some 2
  else none

def readMarked : List Char → Option Nat
  | '0' :: m :: rest => match markBase? m with
    | some base => readNatural base rest
    | none => none
  | _ => none

def readOptionallyMarked (base : Nat) (cs : List Char) : Option Nat :=
  (readNatural base cs).or (match cs with
    | '0' :: m :: rest => if markBase? m = some base then readNatural base rest else none
    | _ => none)

def readInteger? (cs : List Char) : Option Int :=
  readSigned (readNatural 10) (trimAscii (cs.map asciiForm))

def readIntegerIn? (base : Nat) (cs : List Char) : Option Int :=
  readSigned (readOptionallyMarked base) (trimAscii (cs.map asciiForm))

def readMarkedInteger? (cs : List Char) : Option Int :=
  readSigned readMarked (trimAscii (cs.map asciiForm))

/-- The text that the tagged form reads: no blanks around it and no underscores. -/
def withoutSeparators (s : String) : List Char :=
  (trimRight (trimLeft s.toList)).filter (· != '_')

/-- Base ten goes first, so that leading zeros never choose a base. -/
def readTaggedInteger? (s : String) : Option Int :=
  let cs := withoutSeparators s
  (readInteger? cs).or (readMarkedInteger? cs)

/-- Octets are characters below 128; others stand in no number. -/
def octetChars (octets : List UInt8) : List Char :=
  octets.map fun o => if o.toNat < 127 then Char.ofNat o.toNat else '?'

end BuildConstants.Number
