import BuildConstants.Document.Form
import BuildConstants.Document.Node.Parse
import BuildConstants.Value.Equality

/-!
# Values of documents

The datum of a form, and the first thing that is wrong with it. Collections are filled level by
level, so the faults of outer levels come first; within a level they come in the order of the
document. A key is finished before its value is looked at.
-/

namespace BuildConstants.Document

namespace Form

/-- A list becomes a tuple where it is a key. -/
def keyDatum : Datum → Datum
  | .list items => .tuple items
  | d => d

mutual

def datum : Form → Datum
  | leaf (.ok d) => d
  | leaf (.error _) | faulty => .null
  | sequence items => .list (dataOf items)
  | mapping asSet _ entries =>
    let es := entriesOf [] entries
    if asSet then .set (es.map (·.1)) else .map es

def dataOf : List Form → List Datum
  | [] => []
  | f :: rest => f.datum :: dataOf rest

def entriesOf (done : List (Datum × Datum)) : List (Form × Form) → List (Datum × Datum)
  | [] => done
  | (k, v) :: rest => entriesOf (Datum.put done (keyDatum k.datum) v.datum) rest

end

/-- What is wrong with a form before it is filled. -/
def atOnce : Form → Option DocumentProblem
  | leaf (.error e) => some e
  | _ => none

/-- What is wrong with a key: collections that may change cannot be keys. -/
def keyProblem : Datum → Option DocumentProblem
  | .set _ | .map _ => some .invalid
  | _ => none

def entryProblem (merged : Bool) (before : List Datum) (key : Datum) : Option DocumentProblem :=
  if !key.isKey then some .unusableKey
  else if !merged && before.any (fun k => key.equals k) then some .invalid
  else none

mutual

/-- The first fault of a form that is finished before anything else. -/
def inside : Form → Option DocumentProblem
  | leaf (.error e) => some e
  | leaf (.ok _) => none
  | faulty => some .invalid
  | sequence items => insideAll items
  | mapping _ merged entries => insideEntries true merged [] entries

def insideAll : List Form → Option DocumentProblem
  | [] => none
  | f :: rest => f.inside.or (insideAll rest)

/-- The first fault of entries after those with the keys `before`. Values may be left unfilled. -/
def insideEntries (fill merged : Bool) (before : List Datum) :
    List (Form × Form) → Option DocumentProblem
  | [] => none
  | (k, v) :: rest =>
    let key := keyDatum k.datum
    k.inside <|> keyProblem key <|> (if fill then v.inside else v.atOnce)
      <|> entryProblem merged before key <|> insideEntries fill merged (key :: before) rest

end

/-- The faults of two groups of forms, level by level; the first group goes first. -/
def zipLevels : List (Option DocumentProblem) → List (Option DocumentProblem) →
    List (Option DocumentProblem)
  | [], bs => bs
  | as, [] => as
  | a :: as, b :: bs => a.or b :: zipLevels as bs

mutual

/-- The first fault of each level as collections are filled. -/
def levels : Form → List (Option DocumentProblem)
  | leaf _ => []
  | faulty => [some .invalid]
  | sequence items => items.findSome? atOnce :: levelsAll items
  | mapping _ merged entries => insideEntries false merged [] entries :: levelsEntries entries

def levelsAll : List Form → List (Option DocumentProblem)
  | [] => []
  | f :: rest => zipLevels f.levels (levelsAll rest)

def levelsEntries : List (Form × Form) → List (Option DocumentProblem)
  | [] => []
  | (_, v) :: rest => zipLevels v.levels (levelsEntries rest)

end

def problem? (f : Form) : Option DocumentProblem :=
  f.atOnce.or (f.levels.findSome? id)

def value (f : Form) : Checked Datum :=
  match f.problem? with
  | some e => .error e
  | none => .ok f.datum

end Form

/-- The value of a text that holds at most one document; an empty text has the value null. -/
def value (constructors : List (String × Constructor)) (s : String) : Checked Datum := do
  match ← parse s with
  | some n => (n.form constructors).value
  | none => return .null

end BuildConstants.Document
