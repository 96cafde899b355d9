import BuildConstants.Document.Token.Basic

/-!
# Plain scalars

A plain scalar ends at a gap that a comment, a lesser indentation or nothing follows, at a colon
before a gap, and inside brackets at a comma or a bracket. One line break inside of it is a
space; of several, the first is dropped.
-/

namespace BuildConstants.Document.Plain

def isFlowIndicator (c : Char) : Bool :=
  c == ',' || c == '[' || c == ']' || c == '{' || c == '}'

/-- How many characters belong to the scalar before the next gap. -/
def length (inFlow : Bool) : List Char → Nat
  | [] => 0
  | c :: rest =>
    if isGap c || (inFlow && isFlowIndicator c) || (c == ':' && isGap (rest.headD endMark)) then 0
    else length inFlow rest + 1

/-- Line breaks and spaces behind a first line break; none where a document begins or ends. -/
def breaks : Nat → List Char → Cursor → Option (List Char) × Cursor
  | 0, done, c => (some done, c)
  | fuel + 1, done, c =>
    if c.peek = ' ' then breaks fuel done c.next
    else match c.lineBreak? with
      | none => (some done, c)
      | some (b, c) =>
        if c.atDocumentMark then (none, c) else breaks fuel (done ++ [b]) c

/-- The text that a first line break and the breaks behind it stand for. -/
def fold (first : Char) (more : List Char) : List Char :=
  if first != '\n' then first :: more
  else if more.isEmpty then [' ']
  else more

/-- What a gap stands for, and whether it passes a line break. Nothing ends the scalar. -/
def gap (c : Cursor) : List Char × Bool × Cursor :=
  let (spaces, c) := c.span (· == ' ')
  match c.lineBreak? with
  | none => (spaces, false, c)
  | some (first, c) =>
    if c.atDocumentMark then ([], true, c)
    else match breaks c.fuel [] c with
      | (none, c) => ([], true, c)
      | (some more, c) => (fold first more, true, c)

def scan (inFlow : Bool) (indent : Int) :
    Nat → List Char → List Char → Bool → Cursor → (List Char × Bool) × Cursor
  | 0, done, _, broken, c => ((done, broken), c)
  | fuel + 1, done, pending, broken, c =>
    let n := if c.peek = '#' then 0 else length inFlow c.rest
    if n = 0 then ((done, broken), c)
    else
      let done := done ++ pending ++ c.rest.take n
      let (pending, broken, c) := gap (c.skip n)
      if pending.isEmpty || c.peek = '#' || (!inFlow && c.column < indent) then
        ((done, broken), c)
      else scan inFlow indent fuel done pending broken c

end BuildConstants.Document.Plain
