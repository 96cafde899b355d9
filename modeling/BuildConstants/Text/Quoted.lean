import BuildConstants.Text.Printable
import BuildConstants.Text.Surrogate

/-!
# Quoted texts

A quoted text stands between single quotes, or between double quotes if it holds a single quote
and no double quote. The quote in use, the backslash and unprintable characters are escaped, the
last by the shortest of three hexadecimal forms.
-/

namespace BuildConstants.Text

def hexDigit (n : Nat) : Char :=
  if n < 10 then Char.ofNat (48 + n) else Char.ofNat (87 + n)

/-- Exactly `width` hexadecimal digits, the most significant first. -/
def hexDigits : Nat → Nat → List Char
  | 0, _ => []
  | width + 1, n => hexDigits width (n / 16) ++ [hexDigit (n % 16)]

def singleQuote : Char := '\x27'

def doubleQuote : Char := '\x22'

def enclosingQuote (cs : List Char) : Char :=
  if cs.contains singleQuote && !cs.contains doubleQuote then doubleQuote else singleQuote

def escapeUnprintable (n : Nat) : List Char :=
  if n < 0x100 then '\\' :: 'x' :: hexDigits 2 n
  else if n < 0x10000 then '\\' :: 'u' :: hexDigits 4 n
  else '\\' :: 'U' :: hexDigits 8 n

def quoteChar (quote c : Char) : List Char :=
  if c = quote || c = '\\' then ['\\', c]
  else if c = '\n' then ['\\', 'n']
  else if c = '\r' then ['\\', 'r']
  else if c = '\t' then ['\\', 't']
  else if isPrintable c then [c]
  else escapeUnprintable (codePoint c)

def quoted (s : String) : String :=
  let q := enclosingQuote s.toList
  String.ofList (q :: (s.toList.flatMap (quoteChar q) ++ [q]))

/-- Octets are quoted as characters below 128; the others take the two-digit form. -/
def quotedOctets (octets : List UInt8) : String :=
  let cs := octets.map fun o => Char.ofNat o.toNat
  let q := enclosingQuote cs
  let one (c : Char) : List Char :=
    if c.toNat < 128 then quoteChar q c else escapeUnprintable c.toNat
  String.ofList ('b' :: q :: (cs.flatMap one ++ [q]))

end BuildConstants.Text
