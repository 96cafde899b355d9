import BuildConstants.Document.Node.Implicit
import BuildConstants.Document.Token.Scan

/-!
# From tokens to nodes

One document is read, with its directives. Missing nodes are empty plain scalars. An anchor names
a node from its beginning on, and the latest anchor of a name counts.
-/

namespace BuildConstants.Document

/-- What is left to read, what the anchors stand for and what is wrong where the tokens end. -/
structure Reading where
  tokens : List Token
  anchors : List (String × Node)
  failure : DocumentProblem

namespace Reading

def peek (r : Reading) : Checked Token :=
  match r.tokens with
  | t :: _ => .ok t
  | [] => .error r.failure

def next (r : Reading) : Reading :=
  { r with tokens := r.tokens.tail }

def bind (r : Reading) (anchor : Option String) (n : Node) : Reading :=
  match anchor with
  | some name => { r with anchors := (name, n) :: r.anchors }
  | none => r

end Reading

structure Properties where
  anchor : Option String
  /-- The name of the tag; the name `!` leaves the choice to the text of the node. -/
  tag : Option String
  line : Option Nat

def Properties.empty : Properties := ⟨none, none, none⟩

structure Place where
  block : Bool
  /-- Entries of a sequence may stand there without further indentation. -/
  indentless : Bool

def Place.blockItem : Place := ⟨true, false⟩

def Place.mappingItem : Place := ⟨true, true⟩

def Place.flowItem : Place := ⟨false, false⟩

abbrev Handles : Type := List (String × String)

def standardHandles : Handles := [("!", "!"), ("!!", Tag.standardExpansion)]

def tagName (handles : Handles) : Option String → String → Checked String
  | none, suffix => .ok suffix
  | some h, suffix => match handles.find? (·.1 == h) with
    | some (_, expansion) => .ok (expansion ++ suffix)
    | none => .error .invalid

def Properties.withTag (p : Properties) (handles : Handles) (handle : Option String)
    (suffix : String) (line : Nat) : Checked Properties := do
  let name ← tagName handles handle suffix
  return { p with tag := some name, line := p.line.or (some line) }

/-- An anchor and a tag, in either order. -/
def properties (handles : Handles) (r : Reading) : Checked (Properties × Reading) :=
  match r.tokens with
  | ⟨.anchor a, l⟩ :: ⟨.tag h s, l'⟩ :: _ => do
    let p ← Properties.withTag ⟨some a, none, some l⟩ handles h s l'
    return (p, r.next.next)
  | ⟨.tag h s, l⟩ :: ⟨.anchor a, _⟩ :: _ => do
    let p ← Properties.withTag ⟨some a, none, none⟩ handles h s l
    return (p, r.next.next)
  | ⟨.anchor a, l⟩ :: _ => .ok (⟨some a, none, some l⟩, r.next)
  | ⟨.tag h s, l⟩ :: _ => do
    let p ← Properties.withTag .empty handles h s l
    return (p, r.next)
  | _ => .ok (.empty, r)

def Properties.scalarTag (p : Properties) (plain : Bool) (s : String) : Tag :=
  match p.tag with
  | some "!" => Implicit.tag s
  | some name => Tag.ofName name
  | none => if plain then Implicit.tag s else .text

def Properties.collectionTag (p : Properties) (standard : Tag) : Tag :=
  match p.tag with
  | some "!" | none => standard
  | some name => Tag.ofName name

def emptyNode (line : Nat) : Node :=
  .scalar .null "" line

/-- Properties alone make an empty scalar. -/
def readEmpty (p : Properties) (t : Token) (r : Reading) : Checked (Node × Reading) :=
  if p.anchor.isNone && p.tag.isNone then .error .invalid
  else
    let n := Node.scalar (p.scalarTag (p.tag.isNone || p.tag == some "!") "") ""
      (p.line.getD t.line)
    .ok (n, r.bind p.anchor n)

def endsBlockItem : TokenKind → Bool
  | .blockEntry | .blockEnd => true
  | _ => false

def endsIndentlessItem : TokenKind → Bool
  | .blockEntry | .key | .value | .blockEnd => true
  | _ => false

def endsMappingItem : TokenKind → Bool
  | .key | .value | .blockEnd => true
  | _ => false

def closes : Bracket → TokenKind → Bool
  | .sequence, .flowSequenceEnd | .mapping, .flowMappingEnd => true
  | _, _ => false

def endsFlowKey (b : Bracket) : TokenKind → Bool
  | .value | .flowEntry => true
  | kind => closes b kind

def endsFlowValue (b : Bracket) : TokenKind → Bool
  | .flowEntry => true
  | kind => closes b kind

/-- Passes the comma in front of every item but the first. -/
def separated (first : Bool) (r : Reading) : Checked Reading := do
  if first then return r
  else
    let t ← r.peek
    match t.kind with
    | .flowEntry => return r.next
    | _ => .error .invalid

mutual

/-- Reads one node. Every call pays with one unit of fuel. -/
def readNode (handles : Handles) (place : Place) : Nat → Reading → Checked (Node × Reading)
  | 0, _ => .error .invalid
  | fuel + 1, r => do
    let first ← r.peek
    match first.kind with
    | .alias name => match r.anchors.find? (·.1 == name) with
      | some (_, n) => .ok (n, r.next)
      | none => .error .invalid
    | _ =>
      let (p, r) ← properties handles r
      let t ← r.peek
      let asSequence := Node.sequence (p.collectionTag .sequence)
      let asMapping := Node.mapping (p.collectionTag .mapping)
      match t.kind with
      | .blockEntry =>
        if place.indentless then
          let (items, r) ← readIndentless handles fuel (r.bind p.anchor (asSequence []))
          return (asSequence items, r.bind p.anchor (asSequence items))
        else readEmpty p t r
      | .scalar s plain =>
        let n := Node.scalar (p.scalarTag plain s) s (p.line.getD t.line)
        return (n, r.next.bind p.anchor n)
      | .flowSequenceStart =>
        let (items, r) ← readFlowSequence handles true fuel (r.next.bind p.anchor (asSequence []))
        return (asSequence items, r.bind p.anchor (asSequence items))
      | .flowMappingStart =>
        let (entries, r) ← readFlowMapping handles true fuel (r.next.bind p.anchor (asMapping []))
        return (asMapping entries, r.bind p.anchor (asMapping entries))
      | .blockSequenceStart =>
        if place.block then
          let (items, r) ← readBlockSequence handles fuel (r.next.bind p.anchor (asSequence []))
          return (asSequence items, r.bind p.anchor (asSequence items))
        else readEmpty p t r
      | .blockMappingStart =>
        if place.block then
          let (entries, r) ← readBlockMapping handles fuel (r.next.bind p.anchor (asMapping []))
          return (asMapping entries, r.bind p.anchor (asMapping entries))
        else readEmpty p t r
      | _ => readEmpty p t r

/-- A node, unless the token there says that it is missing. -/
def readOptional (handles : Handles) (place : Place) (isMissing : TokenKind → Bool) :
    Nat → Reading → Checked (Node × Reading)
  | 0, _ => .error .invalid
  | fuel + 1, r => do
    let t ← r.peek
    if isMissing t.kind then return (emptyNode t.line, r)
    else readNode handles place fuel r

def readBlockSequence (handles : Handles) : Nat → Reading → Checked (List Node × Reading)
  | 0, _ => .error .invalid
  | fuel + 1, r => do
    let t ← r.peek
    match t.kind with
    | .blockEntry =>
      let (n, r) ← readOptional handles .blockItem endsBlockItem fuel r.next
      let (ns, r) ← readBlockSequence handles fuel r
      return (n :: ns, r)
    | .blockEnd => return ([], r.next)
    | _ => .error .invalid

def readIndentless (handles : Handles) : Nat → Reading → Checked (List Node × Reading)
  | 0, _ => .error .invalid
  | fuel + 1, r => do
    let t ← r.peek
    match t.kind with
    | .blockEntry =>
      let (n, r) ← readOptional handles .blockItem endsIndentlessItem fuel r.next
      let (ns, r) ← readIndentless handles fuel r
      return (n :: ns, r)
    | _ => return ([], r)

def readBlockMapping (handles : Handles) : Nat → Reading → Checked (List (Node × Node) × Reading)
  | 0, _ => .error .invalid
  | fuel + 1, r => do
    let t ← r.peek
    match t.kind with
    | .key =>
      let (k, r) ← readOptional handles .mappingItem endsMappingItem fuel r.next
      let (v, r) ← readBlockValue handles fuel r
      let (es, r) ← readBlockMapping handles fuel r
      return ((k, v) :: es, r)
    | .value =>
      let (v, r) ← readBlockValue handles fuel r
      let (es, r) ← readBlockMapping handles fuel r
      return ((emptyNode t.line, v) :: es, r)
    | .blockEnd => return ([], r.next)
    | _ => .error .invalid

def readBlockValue (handles : Handles) : Nat → Reading → Checked (Node × Reading)
  | 0, _ => .error .invalid
  | fuel + 1, r => do
    let t ← r.peek
    match t.kind with
    | .value => readOptional handles .mappingItem endsMappingItem fuel r.next
    | _ => return (emptyNode t.line, r)

/-- Items of a flow sequence; a key makes a mapping of one entry. -/
def readFlowSequence (handles : Handles) (first : Bool) :
    Nat → Reading → Checked (List Node × Reading)
  | 0, _ => .error .invalid
  | fuel + 1, r => do
    let t ← r.peek
    match t.kind with
    | .flowSequenceEnd => return ([], r.next)
    | _ =>
      let r ← separated first r
      let t ← r.peek
      match t.kind with
      | .flowSequenceEnd => return ([], r.next)
      | .key =>
        let (k, r) ← readOptional handles .flowItem (endsFlowKey .sequence) fuel r.next
        let (v, r) ← readFlowValue handles .sequence fuel r
        let (ns, r) ← readFlowSequence handles false fuel r
        return (.mapping .mapping [(k, v)] :: ns, r)
      | _ =>
        let (n, r) ← readNode handles .flowItem fuel r
        let (ns, r) ← readFlowSequence handles false fuel r
        return (n :: ns, r)

def readFlowMapping (handles : Handles) (first : Bool) :
    Nat → Reading → Checked (List (Node × Node) × Reading)
  | 0, _ => .error .invalid
  | fuel + 1, r => do
    let t ← r.peek
    match t.kind with
    | .flowMappingEnd => return ([], r.next)
    | _ =>
      let r ← separated first r
      let t ← r.peek
      match t.kind with
      | .flowMappingEnd => return ([], r.next)
      | .key =>
        let (k, r) ← readOptional handles .flowItem (endsFlowKey .mapping) fuel r.next
        let (v, r) ← readFlowValue handles .mapping fuel r
        let (es, r) ← readFlowMapping handles false fuel r
        return ((k, v) :: es, r)
      | .value =>
        let (v, r) ← readFlowValue handles .mapping fuel r
        let (es, r) ← readFlowMapping handles false fuel r
        return ((emptyNode t.line, v) :: es, r)
      | _ =>
        let (k, r) ← readNode handles .flowItem fuel r
        let t ← r.peek
        let (es, r) ← readFlowMapping handles false fuel r
        return ((k, emptyNode t.line) :: es, r)

def readFlowValue (handles : Handles) (b : Bracket) :
    Nat → Reading → Checked (Node × Reading)
  | 0, _ => .error .invalid
  | fuel + 1, r => do
    let t ← r.peek
    match t.kind with
    | .value => readOptional handles .flowItem (endsFlowValue b) fuel r.next
    | _ => return (emptyNode t.line, r)

end

def readDirectives : List Token → Bool → Handles → Checked (Handles × List Token)
  | ⟨.directive (.version major _), _⟩ :: rest, versioned, handles =>
    if versioned || major != 1 then .error .invalid else readDirectives rest true handles
  | ⟨.directive (.tagHandle h expansion), _⟩ :: rest, versioned, handles =>
    if handles.any (·.1 == h) then .error .invalid
    else readDirectives rest versioned ((h, expansion) :: handles)
  | ⟨.directive .unknown, _⟩ :: rest, versioned, handles => readDirectives rest versioned handles
  | tokens, _, handles => .ok (handles, tokens)

def startsContent : TokenKind → Bool
  | .directive _ | .documentStart | .documentEnd | .streamEnd => false
  | _ => true

def readEnd (r : Reading) : Checked Unit := do
  let t ← r.peek
  let r := match t.kind with
    | .documentEnd => r.next
    | _ => r
  let t ← r.peek
  match t.kind with
  | .streamEnd => return ()
  | _ => .error .invalid

/-- Enough fuel for all tokens: no more than four calls stand between two of them. -/
def Reading.fuel (r : Reading) : Nat :=
  4 * r.tokens.length + 4

def readContent (handles : Handles) (r : Reading) : Checked Node := do
  let (n, r) ← readOptional handles .blockItem (fun kind => !startsContent kind) r.fuel r
  readEnd r
  return n

def readDocument (r : Reading) : Checked (Option Node) := do
  let t ← r.peek
  match t.kind with
  | .streamEnd => return none
  | .directive _ | .documentStart =>
    let (handles, rest) ← readDirectives r.tokens false []
    let r := { r with tokens := rest }
    let t ← r.peek
    match t.kind with
    | .documentStart => return some (← readContent (handles ++ standardHandles) r.next)
    | _ => .error .invalid
  | .documentEnd => .error .invalid
  | _ => return some (← readContent standardHandles r)

def isAdmitted (c : Char) : Bool :=
  let n := c.toNat
  c == '\t' || c == '\n' || c == '\r' || n == 0x85 || (0x20 ≤ n && n ≤ 0x7e)
    || (0xa0 ≤ n && n ≤ 0xfffd) || 0x10000 ≤ n

def parse (s : String) : Checked (Option Node) :=
  let cs := s.toList
  if !cs.all isAdmitted then .error .invalid
  else
    let (ts, problem) := tokens cs
    readDocument ⟨ts, [], problem.getD .invalid⟩

end BuildConstants.Document
