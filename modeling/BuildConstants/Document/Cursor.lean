import BuildConstants.Fault

/-!
# Places in a document

A cursor is the rest of a document with its place: how many characters lie before it, in which
line, in which column. The end shows as a character that no document holds.
-/

namespace BuildConstants.Document

structure Cursor where
  rest : List Char
  index : Nat
  line : Nat
  column : Nat

def endMark : Char := '\x00'

def byteOrderMark : Char := '\ufeff'

def isBreak (c : Char) : Bool :=
  c == '\n' || c == '\r' || c == '\x85' || c == '\u2028' || c == '\u2029'

/-- What ends a comment or a line of a block of text. -/
def endsLine (c : Char) : Bool :=
  c == '\n' || c == '\r' || c == '\x85' || c == endMark

/-- What sets an indicator apart from the text after it. -/
def isGap (c : Char) : Bool :=
  c == ' ' || c == '\t' || endsLine c

def isSpaceOrTab (c : Char) : Bool :=
  c == ' ' || c == '\t'

/-- What may follow a name, a tag or a directive. -/
def endsWord (c : Char) : Bool :=
  c == ' ' || c == endMark || isBreak c

namespace Cursor

def start (cs : List Char) : Cursor := ⟨cs, 0, 0, 0⟩

def peek (c : Cursor) : Char :=
  c.rest.headD endMark

def peekAt (c : Cursor) (n : Nat) : Char :=
  c.rest.getD n endMark

/-- Passes one character. Only line feeds and carriage returns start a line; a byte order mark has
no width. -/
def next (c : Cursor) : Cursor :=
  match c.rest with
  | [] => c
  | x :: rest =>
    if x = '\n' || (x = '\r' && rest.head? != some '\n') then ⟨rest, c.index + 1, c.line + 1, 0⟩
    else if x = byteOrderMark then ⟨rest, c.index + 1, c.line, c.column⟩
    else ⟨rest, c.index + 1, c.line, c.column + 1⟩

def skip (c : Cursor) : Nat → Cursor
  | 0 => c
  | n + 1 => c.next.skip n

def span (c : Cursor) (p : Char → Bool) : List Char × Cursor :=
  let taken := c.rest.takeWhile p
  (taken, c.skip taken.length)

def skipWhile (c : Cursor) (p : Char → Bool) : Cursor :=
  (c.span p).2

def lineBreak? (c : Cursor) : Option (Char × Cursor) :=
  match c.rest with
  | '\r' :: '\n' :: _ => some ('\n', c.skip 2)
  | x :: _ =>
    if x = '\n' || x = '\r' || x = '\x85' then some ('\n', c.next)
    else if isBreak x then some (x, c.next)
    else none
  | [] => none

/-- Three equal marks that stand alone begin or end a document. -/
def atMarks (c : Cursor) (mark : Char) : Bool :=
  [mark, mark, mark].isPrefixOf c.rest && isGap (c.peekAt 3)

def atDocumentMark (c : Cursor) : Bool :=
  c.atMarks '-' || c.atMarks '.'

/-- Enough fuel for a loop that passes a character in each round. -/
def fuel (c : Cursor) : Nat :=
  c.rest.length + 1

end Cursor

end BuildConstants.Document
