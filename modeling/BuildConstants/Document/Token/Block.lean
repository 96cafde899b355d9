import BuildConstants.Document.Token.Basic

/-!
# Literal and folded blocks of text

The head of a block says what becomes of the line breaks at its end and how far its lines are
indented; without that, the first line with text decides. In a folded block a line break between
two lines that start with text is a space.
-/

namespace BuildConstants.Document.Block

/-- What becomes of the line breaks at the end: one stays, none, or all. -/
inductive Chomping
  | clip
  | strip
  | keep
  deriving DecidableEq

def chomping? : Char → Option Chomping
  | '+' => some .keep
  | '-' => some .strip
  | _ => none

/-- The indentation indicator, a digit other than zero. -/
def increment (c : Cursor) : Checked (Option Nat × Cursor) :=
  if c.peek.isDigit then
    if c.peek = '0' then .error .invalid else .ok (some (c.peek.toNat - 48), c.next)
  else .ok (none, c)

def indicators (c : Cursor) : Checked (Chomping × Option Nat × Cursor) :=
  match chomping? c.peek with
  | some chomping => do
    let (n, c) ← increment c.next
    finish chomping n c
  | none => do
    let (n, c) ← increment c
    match n, chomping? c.peek with
    | some n, some chomping => finish chomping (some n) c.next
    | n, _ => finish .clip n c
where
  finish (chomping : Chomping) (n : Option Nat) (c : Cursor) :
      Checked (Chomping × Option Nat × Cursor) :=
    if endsWord c.peek then .ok (chomping, n, c) else .error .invalid

def endOfHead (c : Cursor) : Checked Cursor :=
  let c := c.skipWhile (· == ' ')
  let c := if c.peek = '#' then c.skipWhile fun x => !endsLine x else c
  if !endsLine c.peek then .error .invalid
  else match c.lineBreak? with
    | some (_, c) => .ok c
    | none => .ok c

/-- Empty lines before the first line with text: their breaks, the greatest column on the way, and
the column in which the first of them ends. -/
def leading : Nat → List Char → Nat → Option Nat → Cursor → (List Char × Nat × Option Nat) × Cursor
  | 0, done, widest, first, c => ((done, widest, first), c)
  | fuel + 1, done, widest, first, c =>
    if c.peek = ' ' then
      let c := c.next
      leading fuel done (max widest c.column) first c
    else match c.lineBreak? with
      | some (b, c') => leading fuel (done ++ [b]) widest (first.or (some c.column)) c'
      | none => ((done, widest, first), c)

def detectIndent (least : Nat) (c : Cursor) : Checked (List Char × Nat × Cursor) :=
  match leading c.fuel [] 0 none c with
  | ((done, widest, first), c) =>
    if 0 < first.getD 0 && first.getD 0 < widest then .error .invalid
    else .ok (done, max least widest, c)

def skipIndent (indent : Nat) : Nat → Cursor → Cursor
  | 0, c => c
  | fuel + 1, c => if c.column < indent && c.peek = ' ' then skipIndent indent fuel c.next else c

/-- Line breaks of empty lines; the cursor stands behind the indentation of the next line. -/
def emptyLines (indent : Nat) : Nat → List Char → Cursor → List Char × Cursor
  | 0, done, c => (done, c)
  | fuel + 1, done, c =>
    let c := skipIndent indent c.fuel c
    match c.lineBreak? with
    | some (b, c) => emptyLines indent fuel (done ++ [b]) c
    | none => (done, c)

structure Shape where
  folded : Bool
  chomping : Chomping
  indent : Nat
  /-- Text in the first column may be the mark of a document. -/
  outermost : Bool

def startsWithBlank (c : Cursor) : Bool :=
  isSpaceOrTab c.peek

/-- The text that ends a block, from its last line break and the empty lines behind it. -/
def ending (s : Shape) (last more : List Char) : List Char :=
  match s.chomping with
  | .clip => last
  | .strip => []
  | .keep => last ++ more

def hasLine (s : Shape) (c : Cursor) : Bool :=
  c.column == s.indent && !c.rest.isEmpty

/-- The text between two lines, from the line break and the empty lines between them. -/
def between (s : Shape) (last more : List Char) (blankAround : Bool) : List Char :=
  if s.folded && last == ['\n'] && !blankAround then
    (if more.isEmpty then [' '] else []) ++ more
  else last ++ more

def lines (s : Shape) : Nat → List Char → Cursor → List Char × Cursor
  | 0, done, c => (done, c)
  | fuel + 1, done, c =>
    let blankBefore := startsWithBlank c
    let (text, c) := c.span fun x => !endsLine x
    let done := done ++ text
    let (last, c) := match c.lineBreak? with
      | some (b, c) => ([b], c)
      | none => ([], c)
    let (more, c) := emptyLines s.indent c.fuel [] c
    let atMark := s.outermost && c.column == 0 && c.atDocumentMark
    if hasLine s c && !atMark then
      lines s fuel (done ++ between s last more (blankBefore || startsWithBlank c)) c
    else (done ++ ending s last more, c)

def scan (folded : Bool) (enclosing : Int) (c : Cursor) : Checked (List Char × Cursor) := do
  let (chomping, n, c) ← indicators c.next
  let c ← endOfHead c
  let least := (enclosing + 1).toNat
  let (more, indent, c) ← match n with
    | none => detectIndent least c
    | some n =>
      let indent := max least 1 + n - 1
      let (more, c) := emptyLines indent c.fuel [] c
      .ok (more, indent, c)
  let outermost := n.isNone && least == 0
  let s : Shape := ⟨folded, chomping, indent, outermost⟩
  if hasLine s c then return lines s c.fuel more c
  else return (ending s [] more, c)

end BuildConstants.Document.Block
