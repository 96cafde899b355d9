import BuildConstants.Document.Token.Block
import BuildConstants.Document.Token.Name
import BuildConstants.Document.Token.Plain
import BuildConstants.Document.Token.Quoted

/-!
# Cutting a document into tokens

Indentation opens and closes blocks. A mapping key without an indicator is seen only at the colon
behind it, so places where a key may have begun are remembered; there is at most one of them at
each level of brackets. A remembered place is given up at the end of its line and after 1024
characters; where a key must begin there, that is an error.
-/

namespace BuildConstants.Document

/-- A place where a key may have begun: the number of tokens before it and where it stands. -/
structure KeyPlace where
  tokens : Nat
  required : Bool
  index : Nat
  line : Nat
  column : Nat

inductive Bracket
  | sequence
  | mapping
  deriving DecidableEq

/-- Tokens are kept with the last one first. The first place belongs to the innermost level. -/
structure Lexer where
  cursor : Cursor
  tokens : List Token
  indent : Int
  enclosing : List Int
  brackets : List Bracket
  keyAllowed : Bool
  place : Option KeyPlace
  outerPlaces : List (Option KeyPlace)

namespace Lexer

def start (cs : List Char) : Lexer :=
  let c := Cursor.start cs
  let c := if c.peek = byteOrderMark then c.next else c
  ⟨c, [], -1, [], [], true, none, []⟩

def inFlow (s : Lexer) : Bool :=
  !s.brackets.isEmpty

def emitAt (s : Lexer) (line : Nat) (kind : TokenKind) : Lexer :=
  { s with tokens := ⟨kind, line⟩ :: s.tokens }

def emit (s : Lexer) (kind : TokenKind) : Lexer :=
  s.emitAt s.cursor.line kind

def advance (s : Lexer) (n : Nat) : Lexer :=
  { s with cursor := s.cursor.skip n }

def keyReach : Nat := 1024

def isStale (c : Cursor) (p : KeyPlace) : Bool :=
  p.line != c.line || p.index + keyReach < c.index

def refresh (c : Cursor) : Option KeyPlace → Checked (Option KeyPlace)
  | none => .ok none
  | some p =>
    if !isStale c p then .ok (some p)
    else if p.required then .error .invalid
    else .ok none

def dropStale (s : Lexer) : Checked Lexer := do
  let place ← refresh s.cursor s.place
  let outer ← s.outerPlaces.mapM (refresh s.cursor)
  return { s with place := place, outerPlaces := outer }

def dropPlace (s : Lexer) : Checked Lexer :=
  match s.place with
  | some p => if p.required then .error .invalid else .ok { s with place := none }
  | none => .ok s

def savePlace (s : Lexer) : Checked Lexer :=
  if s.keyAllowed then do
    let s ← s.dropPlace
    let c := s.cursor
    return { s with place := some ⟨s.tokens.length, !s.inFlow && s.indent == c.column, c.index,
      c.line, c.column⟩ }
  else .ok s

def unwindTo (column : Int) (line : Nat) : List Int → Int → List Token → List Int × Int × List Token
  | [], indent, tokens => ([], indent, tokens)
  | outer :: rest, indent, tokens =>
    if column < indent then unwindTo column line rest outer (⟨.blockEnd, line⟩ :: tokens)
    else (outer :: rest, indent, tokens)

def unwind (s : Lexer) (column : Int) : Lexer :=
  if s.inFlow then s
  else
    let (enclosing, indent, tokens) :=
      unwindTo column s.cursor.line s.enclosing s.indent s.tokens
    { s with enclosing := enclosing, indent := indent, tokens := tokens }

def insertTokens (s : Lexer) (before : Nat) (inserted : List Token) : Lexer :=
  let later := s.tokens.take (s.tokens.length - before)
  let earlier := s.tokens.drop (s.tokens.length - before)
  { s with tokens := later ++ inserted ++ earlier }

def indentTo (s : Lexer) (column : Nat) : Option Lexer :=
  if s.indent < column then
    some { s with enclosing := s.indent :: s.enclosing, indent := column }
  else none

def openBlock (s : Lexer) (kind : TokenKind) : Lexer :=
  match s.indentTo s.cursor.column with
  | some s => s.emit kind
  | none => s

/-- Passes blanks, comments and line breaks. Tabs count as blanks only inside of brackets. -/
def skipBlanks : Nat → Lexer → Lexer
  | 0, s => s
  | fuel + 1, s =>
    let c := s.cursor.skipWhile fun x => x == ' ' || (s.inFlow && x == '\t')
    let c := if c.peek = '#' then c.skipWhile fun x => !endsLine x else c
    match c.lineBreak? with
    | some (_, c) => skipBlanks fuel { s with cursor := c, keyAllowed := s.keyAllowed || !s.inFlow }
    | none => { s with cursor := c }

/-- Whether a colon is the indicator of a value. `afterValue` says that such an indicator comes
immediately before it. -/
def isValue (s : Lexer) (afterValue : Bool) : Bool :=
  isGap (s.cursor.peekAt 1) || match s.brackets with
    | [] => false
    | .sequence :: _ => false
    | .mapping :: _ => !afterValue

def plainIndicators : List Char := "-?:,[]{}#&*!|>\x27\x22%@\x60".toList

def isPlainStart (s : Lexer) : Bool :=
  let x := s.cursor.peek
  let next := s.cursor.peekAt 1
  if isGap x || isBreak x then false
  else if !plainIndicators.contains x then true
  else
    (x == ':' && s.inFlow && !isSpaceOrTab next)
      || (!isGap next && (x == '-' || (!s.inFlow && (x == '?' || x == ':'))))

def documentMark (s : Lexer) (kind : TokenKind) : Checked Lexer := do
  let s ← (s.unwind (-1)).dropPlace
  return { s.emit kind with keyAllowed := false }.advance 3

def flowStart (s : Lexer) (b : Bracket) (kind : TokenKind) : Checked Lexer := do
  let s ← s.savePlace
  return { s.emit kind with
    brackets := b :: s.brackets
    keyAllowed := true
    place := none
    outerPlaces := s.place :: s.outerPlaces }.advance 1

def flowEnd (s : Lexer) (kind : TokenKind) : Checked Lexer := do
  let s ← s.dropPlace
  return { s.emit kind with
    brackets := s.brackets.tail
    keyAllowed := false
    place := s.outerPlaces.head?.join
    outerPlaces := s.outerPlaces.tail }.advance 1

def flowEntry (s : Lexer) : Checked Lexer := do
  let s ← s.dropPlace
  return { s.emit .flowEntry with keyAllowed := true }.advance 1

def blockEntry (s : Lexer) : Checked Lexer :=
  if !s.inFlow && !s.keyAllowed then .error .invalid
  else do
    let s := if s.inFlow then s else s.openBlock .blockSequenceStart
    let s ← s.dropPlace
    return { s.emit .blockEntry with keyAllowed := true }.advance 1

def explicitKey (s : Lexer) : Checked Lexer :=
  if !s.inFlow && !s.keyAllowed then .error .invalid
  else do
    let s := if s.inFlow then s else s.openBlock .blockMappingStart
    let s ← s.dropPlace
    return { s.emit .key with keyAllowed := !s.inFlow }.advance 1

/-- The indicator of a value makes a key of what began at the remembered place. -/
def value (s : Lexer) : Checked Lexer :=
  match s.place with
  | some p =>
    let key : Token := ⟨.key, p.line⟩
    let s := { s with place := none, keyAllowed := false }
    let s := match (if s.inFlow then none else s.indentTo p.column) with
      | some s => s.insertTokens p.tokens [key, ⟨.blockMappingStart, p.line⟩]
      | none => s.insertTokens p.tokens [key]
    .ok ((s.emit .value).advance 1)
  | none =>
    if !s.inFlow && !s.keyAllowed then .error .invalid
    else
      let s := if s.inFlow then s else s.openBlock .blockMappingStart
      .ok ({ s.emit .value with keyAllowed := !s.inFlow }.advance 1)

/-- A token that may start a key and that no key follows directly. -/
def named (s : Lexer) (read : Cursor → Checked (TokenKind × Cursor)) : Checked Lexer := do
  let s ← s.savePlace
  let (kind, c) ← read s.cursor
  return { s.emit kind with cursor := c, keyAllowed := false }

def block (s : Lexer) (folded : Bool) : Checked Lexer := do
  let s ← s.dropPlace
  let (text, c) ← Block.scan folded s.indent s.cursor
  return { s.emit (.scalar (String.ofList text) false) with cursor := c, keyAllowed := true }

def quotedScalar (c : Cursor) : Checked (TokenKind × Cursor) := do
  let (text, c) ← Quoted.scan c.peek c.fuel [] c.next
  return (.scalar (String.ofList text) false, c)

def plain (s : Lexer) : Checked Lexer := do
  let s ← s.savePlace
  let ((text, broken), c) :=
    Plain.scan s.inFlow (s.indent + 1) s.cursor.fuel [] [] false s.cursor
  return { s.emit (.scalar (String.ofList text) true) with cursor := c, keyAllowed := broken }

def readAnchor (c : Cursor) : Checked (TokenKind × Cursor) := do
  let (name, c) ← Name.anchor c
  return (.anchor name, c)

def readAlias (c : Cursor) : Checked (TokenKind × Cursor) := do
  let (name, c) ← Name.anchor c
  return (.alias name, c)

def readTag (c : Cursor) : Checked (TokenKind × Cursor) := do
  let ((handle, suffix), c) ← Name.tag c
  return (.tag handle suffix, c)

def directive (s : Lexer) : Checked Lexer := do
  let s ← (s.unwind (-1)).dropPlace
  let (d, c) ← Name.directive s.cursor
  return { s.emit (.directive d) with cursor := c, keyAllowed := false }

def isValueToken : List Token → Bool
  | ⟨.value, _⟩ :: _ => true
  | _ => false

def token (s : Lexer) (afterValue : Bool) : Checked Lexer :=
  let c := s.cursor
  let apart := isGap (c.peekAt 1)
  match c.peek with
  | '[' => s.flowStart .sequence .flowSequenceStart
  | '{' => s.flowStart .mapping .flowMappingStart
  | ']' => s.flowEnd .flowSequenceEnd
  | '}' => s.flowEnd .flowMappingEnd
  | ',' => s.flowEntry
  | '*' => s.named readAlias
  | '&' => s.named readAnchor
  | '!' => s.named readTag
  | '\x27' => s.named quotedScalar
  | '\x22' => s.named quotedScalar
  | x =>
    if x = '%' && c.column = 0 then s.directive
    else if c.column = 0 && c.atMarks '-' then s.documentMark .documentStart
    else if c.column = 0 && c.atMarks '.' then s.documentMark .documentEnd
    else if x = '-' && apart then s.blockEntry
    else if x = '?' && (s.inFlow || apart) then s.explicitKey
    else if x = ':' && s.isValue afterValue then s.value
    else if x = '|' && !s.inFlow then s.block false
    else if x = '>' && !s.inFlow then s.block true
    else if s.isPlainStart then s.plain
    else .error .invalid

/-- The end of the document closes all blocks. -/
def finish (s : Lexer) : Checked Lexer := do
  let s ← (s.unwind (-1)).dropPlace
  return s.emit .streamEnd

/-- Cuts tokens up to the end or the first error; the tokens before the error are kept. -/
def run : Nat → Lexer → List Token × Option DocumentProblem
  | 0, s => (s.tokens.reverse, some .invalid)
  | fuel + 1, s => match next s with
    | .error e => (s.tokens.reverse, some e)
    | .ok (s, true) => (s.tokens.reverse, none)
    | .ok (s, false) => run fuel s
where
  next (s : Lexer) : Checked (Lexer × Bool) := do
    let s ← s.dropStale
    let afterValue := isValueToken s.tokens && (s.place.isSome || s.outerPlaces.any (·.isSome))
    let s ← (skipBlanks s.cursor.fuel s).dropStale
    let s := s.unwind s.cursor.column
    if s.cursor.rest.isEmpty then
      let s ← s.finish
      return (s, true)
    else
      let s ← s.token afterValue
      return (s, false)

end Lexer

/-- The tokens of a document, and what ends them early. -/
def tokens (cs : List Char) : List Token × Option DocumentProblem :=
  Lexer.run (cs.length + 1) (.start cs)

end BuildConstants.Document
