import BuildConstants.Document.Node.Scalar

/-!
# Forms

The form of a node says what is made of it: tags are applied and merged mappings are put together.
A form holds all that is wrong with the node; what is reported first is said elsewhere.
-/

namespace BuildConstants.Document

inductive Form
  | leaf (value : Checked Datum)
  | sequence (items : List Form)
  /-- Equal keys are an error, unless mappings were merged. A set is made of the keys alone. -/
  | mapping (asSet merged : Bool) (entries : List (Form × Form))
  /-- A collection that cannot be filled. -/
  | faulty

structure Entries where
  merged : List (Form × Form)
  own : List (Form × Form)

namespace Entries

def all (e : Entries) : List (Form × Form) :=
  e.merged ++ e.own

def addOwn (key value : Form) (e : Entries) : Entries :=
  { e with own := (key, value) :: e.own }

def form (asSet : Bool) : Option Entries → Form
  | some e => .mapping asSet (!e.merged.isEmpty) e.all
  | none => .faulty

end Entries

namespace Node

def tag : Node → Tag
  | scalar t _ _ | sequence t _ | mapping t _ => t

mutual

/-- The text of a node that is read as a scalar. A mapping stands for its default. -/
def scalarText? : Node → Option String
  | scalar _ s _ => some s
  | mapping _ entries => defaultText? entries
  | sequence .. => none

def defaultText? : List (Node × Node) → Option String
  | [] => none
  | (k, v) :: rest => if k.tag = .default then v.scalarText? else defaultText? rest

end

end Node

section Construction

variable (constructors : List (String × Constructor))

def defaultForm (tag : Tag) : Option String → Form
  | some s => .leaf (scalarValue constructors tag s 0)
  | none => .leaf (.error .invalid)

/-- A key that stands for the default is text. -/
def keyForm (f : Form) : Node → Form
  | .scalar .default s _ => .leaf (.ok (.text s))
  | _ => f

namespace Node

mutual

def form : Node → Form
  | scalar tag s line => match tag with
    | .sequence | .mapping | .set => .faulty
    | _ => .leaf (scalarValue constructors tag s line)
  | sequence tag items => match tag with
    | .sequence => .sequence (forms items)
    | .mapping | .set => .faulty
    | _ => .leaf (.error .invalid)
  | mapping tag entries => match tag with
    | .mapping => Entries.form false (entriesOf [] entries)
    | .set => Entries.form true (entriesOf [] entries)
    | .sequence => .faulty
    | _ => defaultForm constructors tag (defaultText? entries)

def forms : List Node → List Form
  | [] => []
  | n :: rest => n.form :: forms rest

/-- Entries in order, with those that are merged so far; a second merge is an error then. -/
def entriesOf (merged : List (Form × Form)) : List (Node × Node) → Option Entries
  | [] => some ⟨merged, []⟩
  | (k, v) :: rest =>
    if k.tag = .merge then
      if merged.isEmpty then do entriesOf (← v.mergeable) rest else none
    else do
      let e ← entriesOf merged rest
      return e.addOwn (keyForm k.form k) v.form

def mergeable : Node → Option (List (Form × Form))
  | mapping _ entries => (entriesOf [] entries).map Entries.all
  | sequence _ items => mergeableAll items
  | scalar .. => none

/-- What comes first counts, so it is added last. -/
def mergeableAll : List Node → Option (List (Form × Form))
  | [] => some []
  | mapping _ entries :: rest => do
    let later ← mergeableAll rest
    let e ← entriesOf [] entries
    return later ++ e.all
  | _ :: _ => none

end

end Node

end Construction

end BuildConstants.Document
