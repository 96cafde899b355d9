import BuildConstants.Path
import BuildConstants.Text.Lowercase
import BuildConstants.Value.Conversion
import BuildConstants.Value.Equality

/-!
# Readers of configuration values

A reader converts the value at a place to one of its sort, or says that it does not fit. Places
are paths of keys and positions.
-/

namespace BuildConstants

open Text

/-- Takes the place of a value and the value. -/
abbrev Reader : Type := List String → Datum → Except Fault Datum

namespace Reader

def mismatch (path : List String) (wanted : String) (d : Datum) : Except Fault α :=
  .error (.config path (.expected wanted d.typeName))

/-- A value that is no text is taken by its display form, unless it is null or a container. -/
def text : Reader
  | _, .text s => .ok (.text s)
  | _, .member m => .ok (.member m)
  | path, .null => mismatch path "str" .null
  | path, .map entries => mismatch path "str" (.map entries)
  | path, .list items => mismatch path "str" (.list items)
  | _, d => .ok (.text d.display)

def integer : Reader := fun path d =>
  match d.toInteger? with
  | some n => .ok (.int n)
  | none => mismatch path "int" d

def double : Reader := fun path d =>
  match d.toDouble with
  | .ok x => .ok (.float x)
  | .error _ => mismatch path "float" d

def boolean : Reader
  | _, .bool b => .ok (.bool b)
  | path, d => mismatch path "bool" d

def oneOf (choices : List Datum) : Reader := fun path d =>
  if choices.any fun c => d.equals c then .ok d
  else .error (.config path (.notAmong (Datum.tuple choices).written d))

/-- A member by its name in any case, then by its capital name. -/
def memberOfText? (e : Enumeration) (s : String) : Option Member :=
  (Member.ofName? e (lowercase s)).or (Member.ofCapitalName? e s)

def member (e : Enumeration) : Reader := fun path d =>
  let found := match d with
    | .member m => if m.enumeration = e then some m else memberOfText? e m.name
    | .text s => memberOfText? e s
    | _ => none
  match found with
  | some m => .ok (.member m)
  | none =>
    .error (.config path (.notAmong (Datum.commaSeparated (e.members.map (·.name))) d))

def elements (read : Reader) (path : List String) : Nat → List Datum →
    Except Fault (List Datum)
  | _, [] => .ok []
  | i, d :: rest => do
    let first ← read (path ++ [Nat.repr i]) d
    let others ← elements read path (i + 1) rest
    return first :: others

def list (read : Reader) : Reader
  | path, .list items => do
    let read ← elements read path 0 items
    return .list read
  | path, d => mismatch path "list" d

/-- Keys come before their values; keys that become equal share one entry. -/
def entries (readKey readValue : Reader) (path : List String) :
    List (Datum × Datum) → List (Datum × Datum) → Except Fault (List (Datum × Datum))
  | done, [] => .ok done
  | done, (k, v) :: rest => do
    let key ← readKey (path ++ ["<key>"]) k
    let value ← readValue (path ++ [key.display]) v
    entries readKey readValue path (Datum.put done key value) rest

def map (readKey readValue : Reader) : Reader
  | path, .map es => do
    let read ← entries readKey readValue path [] es
    return .map read
  | path, d => mismatch path "dict" d

/-- The elements that a value is enumerated by. -/
def elements? : Datum → Option (List Datum)
  | .list items | .tuple items | .set items | .frozenSet items => some items
  | .map entries => some (entries.map (·.1))
  | .bytes octets => some (octets.map fun o => .int o.toNat)
  | d => d.text?.map fun s => s.toList.map fun c => .text (String.singleton c)

def items : Reader := fun path d =>
  match elements? d with
  | some ds => .ok (.list ds)
  | none => .error (.config path (.notConvertible d.typeName "list"))

/-- Entries from elements, each of which enumerates a key and a value. -/
def pairs? (done : List (Datum × Datum)) : List Datum → Option (List (Datum × Datum))
  | [] => some done
  | d :: rest => match elements? d with
    | some [k, v] => if k.isKey then pairs? (Datum.put done k v) rest else none
    | _ => none

def pairs : Reader
  | _, .map entries => .ok (.map entries)
  | path, d => match (elements? d).bind (pairs? []) with
    | some entries => .ok (.map entries)
    | none => .error (.config path (.notConvertible d.typeName "dict"))

def path : Reader
  | _, .path s => .ok (.path s)
  | _, .text s => .ok (.path (Path.parse s).text)
  | _, .member m => .ok (.path (Path.parse m.label).text)
  | path, d => .error (.config path (.notConvertible d.typeName "Path"))

def unknownKeys (names : List String) (entries : List (Datum × Datum)) : List Datum :=
  (entries.map (·.1)).filter fun k => !names.any fun n => k.text? == some n

/-- Refuses unknown keys; they are shown in order. -/
def refuseUnknown (path : List String) (names : List String) (entries : List (Datum × Datum)) :
    Except Fault Unit :=
  match unknownKeys names entries with
  | [] => .ok ()
  | keys => match Datum.sorted keys with
    | .ok keys => .error (.config path (.unexpectedKeys keys))
    | .error (left, right) => .error (.incomparable left right)

end Reader

end BuildConstants
