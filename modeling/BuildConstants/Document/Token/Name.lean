import BuildConstants.Document.Token.Basic
import BuildConstants.Number.Integer

/-!
# Anchors, tags and directives

The tokens that are made of names.
-/

namespace BuildConstants.Document.Name

open Number

def isAsciiWord (c : Char) : Bool :=
  c.isAlphanum || c == '-' || c == '_'

/-- Visible characters save the indicators of flow collections. -/
def isAnchorChar (c : Char) : Bool :=
  let n := c.toNat
  !(c == ',' || c == '[' || c == ']' || c == '{' || c == '}')
    && ((0x21 ≤ n && n ≤ 0x7e) || (0xa0 ≤ n && n ≤ 0xfffd && c != byteOrderMark) || 0x10000 ≤ n)

def anchor (c : Cursor) : Checked (String × Cursor) :=
  let (name, c) := c.next.span isAnchorChar
  if name.isEmpty || c.peek = byteOrderMark then .error .invalid
  else .ok (String.ofList name, c)

def uriMarks : List Char := "-;/?:@&=+$,_.!~*\x27()[]#".toList

def isUriChar (c : Char) : Bool :=
  c.isAlphanum || uriMarks.contains c

def uriOctets : Nat → Cursor → Checked (List UInt8 × Cursor)
  | 0, _ => .error .invalid
  | fuel + 1, c =>
    if c.peek = '%' then match digitValue? (c.peekAt 1), digitValue? (c.peekAt 2) with
      | some a, some b => do
        let (os, c) ← uriOctets fuel (c.skip 3)
        return (UInt8.ofNat (a * 16 + b) :: os, c)
      | _, _ => .error .invalid
    else .ok ([], c)

def decode (os : List UInt8) : Checked (List Char) :=
  match String.fromUTF8? ⟨os.toArray⟩ with
  | some s => .ok s.toList
  | none => .error .invalid

def uriPart : Nat → List Char → Cursor → Checked (List Char × Cursor)
  | 0, _, _ => .error .invalid
  | fuel + 1, done, c =>
    if c.peek = '%' then do
      let (os, c) ← uriOctets c.fuel c
      let cs ← decode os
      uriPart fuel (done ++ cs) c
    else
      let (cs, c) := c.span isUriChar
      if cs.isEmpty then .ok (done, c) else uriPart fuel (done ++ cs) c

def uri (c : Cursor) : Checked (String × Cursor) := do
  let (cs, rest) ← uriPart c.fuel [] c
  if rest.index = c.index then .error .invalid else .ok (String.ofList cs, rest)

/-- A handle: two exclamation marks with a name between them, or only one of them before a
space. -/
def handle (c : Cursor) : Checked (String × Cursor) :=
  if c.peek != '!' then .error .invalid
  else if c.peekAt 1 = ' ' then .ok ("!", c.next)
  else
    let (name, c) := c.next.span isAsciiWord
    if c.peek = '!' then .ok ("!" ++ String.ofList name ++ "!", c.next) else .error .invalid

def tagParts (short : String) (c : Cursor) : Checked ((Option String × String) × Cursor) :=
  let next := c.peekAt 1
  if next = '<' then do
    let (suffix, c) ← uri (c.skip 2)
    if c.peek = '>' then .ok ((none, suffix), c.next) else .error .invalid
  else if isGap next then .ok ((none, "!"), c.next)
  else do
    let hasHandle := ((c.rest.drop 1).takeWhile fun x => !endsWord x).contains '!'
    let (h, c) ← if hasHandle then handle c else .ok (short, c.next)
    let (suffix, c) ← uri c
    return ((some h, suffix), c)

def tag (c : Cursor) : Checked ((Option String × String) × Cursor) := do
  let (parts, c) ← if c.peekAt 1 = '!' then tagParts "!!" c.next else tagParts "!" c
  if endsWord c.peek then .ok (parts, c) else .error .invalid

def skipSpaces (c : Cursor) : Cursor :=
  c.skipWhile (· == ' ')

def number (c : Cursor) : Checked (Nat × Cursor) :=
  let (ds, c) := c.span Char.isDigit
  match readNatural 10 ds with
  | some n => .ok (n, c)
  | none => .error .invalid

def version (c : Cursor) : Checked (Directive × Cursor) := do
  let (major, c) ← number (skipSpaces c)
  if c.peek != '.' then .error .invalid
  else
    let (minor, c) ← number c.next
    if endsWord c.peek then .ok (.version major minor, c) else .error .invalid

def tagHandle (c : Cursor) : Checked (Directive × Cursor) := do
  let (h, c) ← handle (skipSpaces c)
  if c.peek != ' ' then .error .invalid
  else
    let (expansion, c) ← uri (skipSpaces c)
    if endsWord c.peek then .ok (.tagHandle h expansion, c) else .error .invalid

def isDirectiveChar (c : Char) : Bool :=
  isAsciiWord c || c == ':' || c == '.'

def endOfDirective (c : Cursor) : Checked Cursor :=
  let c := skipSpaces c
  let c := if c.peek = '#' then c.skipWhile fun x => !endsLine x else c
  if !endsLine c.peek then .error .invalid
  else match c.lineBreak? with
    | some (_, c) => .ok c
    | none => .ok c

def directive (c : Cursor) : Checked (Directive × Cursor) := do
  let (name, c) := c.next.span isDirectiveChar
  if name.isEmpty || !endsWord c.peek then .error .invalid
  else
    let (d, c) ← match String.ofList name with
      | "YAML" => version c
      | "TAG" => tagHandle c
      | _ => .ok (.unknown, c.skipWhile fun x => !endsLine x)
    let c ← endOfDirective c
    return (d, c)

end BuildConstants.Document.Name
