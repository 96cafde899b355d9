import BuildConstants.Document.Token.Basic
import BuildConstants.Document.Token.Plain
import BuildConstants.Text.Surrogate

/-!
# Quoted scalars

Between single quotes only the quote itself is written in another way, twice. Between double
quotes a backslash starts an escape. Line breaks fold as in plain scalars, and no document may
begin or end inside of a quoted scalar.
-/

namespace BuildConstants.Document.Quoted

open Text Number

def simpleEscape? : Char → Option Char
  | '0' => some '\x00'
  | 'a' => some '\x07'
  | 'b' => some '\x08'
  | 't' => some '\t'
  | '\t' => some '\t'
  | 'n' => some '\n'
  | 'v' => some '\x0b'
  | 'f' => some '\x0c'
  | 'r' => some '\r'
  | 'e' => some '\x1b'
  | ' ' => some ' '
  | '\x22' => some '\x22'
  | '/' => some '/'
  | '\\' => some '\\'
  | 'N' => some '\x85'
  | '_' => some '\xa0'
  | 'L' => some '\u2028'
  | 'P' => some '\u2029'
  | _ => none

def digitCount? : Char → Option Nat
  | 'x' => some 2
  | 'u' => some 4
  | 'U' => some 8
  | _ => none

def breaks : Nat → List Char → Cursor → Checked (List Char × Cursor)
  | 0, _, _ => .error .invalid
  | fuel + 1, done, c =>
    if c.atDocumentMark then .error .invalid
    else
      let c := c.skipWhile isSpaceOrTab
      match c.lineBreak? with
      | some (b, c) => breaks fuel (done ++ [b]) c
      | none => .ok (done, c)

/-- Blanks stand for themselves unless a line ends with them. -/
def gap (c : Cursor) : Checked (List Char × Cursor) :=
  let (blanks, c) := c.span isSpaceOrTab
  if c.rest.isEmpty then .error .invalid
  else match c.lineBreak? with
    | none => .ok (blanks, c)
    | some (first, c) => do
      let (more, c) ← breaks c.fuel [] c
      return (Plain.fold first more, c)

def hexValue? (ds : List Char) : Option Nat :=
  ds.foldl (fun n d => n.bind fun n => (digitValue? d).map (n * 16 + ·)) (some 0)

def escape (c : Cursor) : Checked (List Char × Cursor) :=
  match simpleEscape? c.peek, digitCount? c.peek with
  | some x, _ => .ok ([x], c.next)
  | none, some n =>
    let c := c.next
    let ds := c.rest.take n
    if ds.length < n then .error .invalid
    else match hexValue? ds with
      | none => .error .invalid
      | some code => match ofCodePoint? code with
        | some x => .ok ([x], c.skip n)
        | none => .error .codePointOutOfRange
  | none, none => match c.lineBreak? with
    | some (_, c) => breaks c.fuel [] c
    | none => .error .invalid

def scan (quote : Char) : Nat → List Char → Cursor → Checked (List Char × Cursor)
  | 0, _, _ => .error .invalid
  | fuel + 1, done, c =>
    if c.rest.isEmpty then .error .invalid
    else if c.peek = quote then
      if quote = singleQuote && c.peekAt 1 = singleQuote then
        scan quote fuel (done ++ [singleQuote]) (c.skip 2)
      else .ok (done, c.next)
    else if isSpaceOrTab c.peek || isBreak c.peek then do
      let (cs, c) ← gap c
      scan quote fuel (done ++ cs) c
    else if quote = doubleQuote && c.peek = '\\' then do
      let (cs, c) ← escape c.next
      scan quote fuel (done ++ cs) c
    else
      let (cs, c) := c.span fun x =>
        !(isSpaceOrTab x || isBreak x || x == quote || x == '\\')
      if cs.isEmpty then scan quote fuel (done ++ [c.peek]) c.next
      else scan quote fuel (done ++ cs) c
where
  singleQuote : Char := '\x27'
  doubleQuote : Char := '\x22'

end BuildConstants.Document.Quoted
