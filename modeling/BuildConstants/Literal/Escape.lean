import BuildConstants.Text.Quoted

/-!
# Escapes in string and char literals

Backslash, the quote in use and control characters are escaped, and a dollar sign where it would
start an interpolation. Everything else stands for itself.
-/

namespace BuildConstants.Literal

open Text

def unicodeEscape (n : Nat) : List Char :=
  '\\' :: 'u' :: hexDigits 4 n

def escapeChar (quote : Option Char) (dollar : Bool) (c : Char) : List Char :=
  if c = '\\' then ['\\', '\\']
  else if c = '\n' then ['\\', 'n']
  else if c = '\r' then ['\\', 'r']
  else if c = '\t' then ['\\', 't']
  else if c = '\x08' then ['\\', 'b']
  else if some c = quote then ['\\', c]
  else if dollar && c == '$' then ['\\', '$']
  else if c.toNat < 32 || c.toNat == 127 then unicodeEscape c.toNat
  else [c]

def escape (quote : Option Char) (dollar : Bool) (cs : List Char) : List Char :=
  cs.flatMap (escapeChar quote dollar)

@[simp] theorem escape_nil (quote : Option Char) (dollar : Bool) : escape quote dollar [] = [] :=
  rfl

@[simp] theorem escape_cons (quote : Option Char) (dollar : Bool) (c : Char) (cs : List Char) :
    escape quote dollar (c :: cs) = escapeChar quote dollar c ++ escape quote dollar cs := by
  simp [escape]

def enclose (quote : Char) (dollar : Bool) (cs : List Char) : String :=
  String.ofList (quote :: (escape (some quote) dollar cs ++ [quote]))

end BuildConstants.Literal
