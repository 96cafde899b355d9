/-!
# Surrogates

A text holds no surrogate code points. Where an escape asks for one, the character at the same
offset in the private plane 15 stands for it, and `codePoint` gives the surrogate back.
-/

namespace BuildConstants.Text

def firstSurrogate : Nat := 0xd800

def surrogateCount : Nat := 0x800

def firstStandIn : Nat := 0xf0000

def isSurrogate (n : Nat) : Bool :=
  firstSurrogate ≤ n && n < firstSurrogate + surrogateCount

def isStandIn (c : Char) : Bool :=
  firstStandIn ≤ c.toNat && c.toNat < firstStandIn + surrogateCount

def codePoint (c : Char) : Nat :=
  if isStandIn c then c.toNat - firstStandIn + firstSurrogate else c.toNat

/-- Whether a character stands for a byte of a name that is no text. -/
def isByteStandIn (c : Char) : Bool :=
  isStandIn c && 0xdc80 ≤ codePoint c && codePoint c ≤ 0xdcff

/-- The character of a code point, if there are so many. -/
def ofCodePoint? (n : Nat) : Option Char :=
  if isSurrogate n then some (Char.ofNat (n - firstSurrogate + firstStandIn))
  else if n < 0x110000 then some (Char.ofNat n)
  else none

end BuildConstants.Text
