import BuildConstants.Value.Datum

/-!
# Equality and order of data

Numbers are equal by value across booleans, integers and doubles; a member equals its name; sets
are equal as sets and maps as maps. Order exists between numbers, between texts and between
sequences of one sort.
-/

namespace BuildConstants

open Number

namespace Datum

def equalsInt (n : Int) : Datum → Bool
  | bool b => n == (if b then 1 else 0)
  | int m => n == m
  | float x => x.equalsInt n
  | _ => false

def equalsFloat (x : Binary64) : Datum → Bool
  | bool b => x.equalsInt (if b then 1 else 0)
  | int m => x.equalsInt m
  | float y => x.equals y
  | _ => false

def lookup (same : Datum → Bool) (entries : List (Datum × Datum)) : Option Datum :=
  (entries.find? fun e => same e.1).map (·.2)

mutual

def equals : Datum → Datum → Bool
  | null, d => match d with
    | null => true
    | _ => false
  | bool b, d => d.equalsInt (if b then 1 else 0)
  | int n, d => d.equalsInt n
  | float x, d => d.equalsFloat x
  | text s, d => d.text? == some s
  | member m, d => d.text? == some m.name
  | bytes octets, d => match d with
    | bytes others => octets == others
    | _ => false
  | date y m d, e => match e with
    | date y' m' d' => y == y' && m == m' && d == d'
    | _ => false
  | path s, d => match d with
    | path t => s == t
    | _ => false
  | list items, d => match d with
    | list others => equalItems items others
    | _ => false
  | tuple items, d => match d with
    | tuple others => equalItems items others
    | _ => false
  | set items, d => match d with
    | set others | frozenSet others => items.length == others.length && allAmong items others
    | _ => false
  | frozenSet items, d => match d with
    | set others | frozenSet others => items.length == others.length && allAmong items others
    | _ => false
  | map entries, d => match d with
    | map others => entries.length == others.length && allEntriesAmong entries others
    | _ => false
  | scalar k v, d => match d with
    | scalar k' v' => k == k' && v.equals v'
    | _ => false
  | record name fields, d => match d with
    | record name' fields' => name == name' && equalFields fields fields'
    | _ => false
  | object sort form shown, d => match d with
    | object sort' form' shown' => sort == sort' && form == form' && shown == shown'
    | _ => false

def equalItems : List Datum → List Datum → Bool
  | [], others => others.isEmpty
  | d :: rest, others => match others with
    | e :: others' => d.equals e && equalItems rest others'
    | [] => false

def allAmong : List Datum → List Datum → Bool
  | [], _ => true
  | d :: rest, others => others.any (fun e => d.equals e) && allAmong rest others

def allEntriesAmong : List (Datum × Datum) → List (Datum × Datum) → Bool
  | [], _ => true
  | (k, v) :: rest, others =>
    (match lookup (fun e => k.equals e) others with
      | some w => v.equals w
      | none => false) && allEntriesAmong rest others

def equalFields : List (String × Datum) → List (String × Datum) → Bool
  | [], others => others.isEmpty
  | (n, v) :: rest, others => match others with
    | (n', v') :: others' => n == n' && v.equals v' && equalFields rest others'
    | [] => false

end

def get? (entries : List (Datum × Datum)) (key : Datum) : Option Datum :=
  lookup key.equals entries

def field? (entries : List (Datum × Datum)) (name : String) : Option Datum :=
  get? entries (text name)

/-- A new key goes to the end; a known key keeps its place and takes the new value. -/
def put (entries : List (Datum × Datum)) (key value : Datum) : List (Datum × Datum) :=
  if entries.any (fun e => key.equals e.1) then
    entries.map fun e => if key.equals e.1 then (e.1, value) else e
  else entries ++ [(key, value)]

def distinct (items : List Datum) : List Datum :=
  items.foldl (fun kept d => if kept.any (fun e => d.equals e) then kept else kept ++ [d]) []

mutual

/-- Only data that never change may be keys. -/
def isKey : Datum → Bool
  | list _ | set _ | map _ | record .. => false
  | tuple items => allKeys items
  | scalar _ v => v.isKey
  | _ => true

def allKeys : List Datum → Bool
  | [] => true
  | d :: rest => d.isKey && allKeys rest

end

def numberBelow : Datum → Datum → Option Bool
  | float x, float y => some (x.below y)
  | float x, d => d.int?.map fun n => match x with
    | .nan => false
    | .infinite s => s
    | .finite s u => Binary64.signedUnits s u < n * Binary64.one
  | d, float y => d.int?.map fun n => match y with
    | .nan => false
    | .infinite s => !s
    | .finite s u => n * (Binary64.one : Int) < Binary64.signedUnits s u
  | d, e => match d.int?, e.int? with
    | some n, some m => some (n < m)
    | _, _ => none

mutual

/-- Whether one datum comes before another, or the pair of data that has no order. -/
def precedes : Datum → Datum → Except (Datum × Datum) Bool
  | text s, d => match d.text? with
    | some t => .ok (s < t)
    | none => .error (text s, d)
  | member m, d => match d.text? with
    | some t => .ok (m.name < t)
    | none => .error (member m, d)
  | bytes a, d => match d with
    | bytes b => .ok (a < b)
    | _ => .error (bytes a, d)
  | tuple items, d => match d with
    | tuple others => itemsBelow items others
    | _ => .error (tuple items, d)
  | frozenSet items, d => match d with
    | frozenSet others => .ok (items.length < others.length && allAmong items others)
    | _ => .error (frozenSet items, d)
  | date y m d, e => match e with
    | date y' m' d' => .ok (y < y' || (y == y' && (m < m' || (m == m' && d < d'))))
    | _ => .error (date y m d, e)
  | d, e => match numberBelow d e with
    | some b => .ok b
    | none => .error (d, e)

def itemsBelow : List Datum → List Datum → Except (Datum × Datum) Bool
  | [], others => .ok (!others.isEmpty)
  | d :: rest, others => match others with
    | [] => .ok false
    | e :: others' => if d.equals e then itemsBelow rest others' else d.precedes e

end

def insertSorted (d : Datum) : List Datum → Except (Datum × Datum) (List Datum)
  | [] => .ok [d]
  | e :: rest => do
    if ← d.precedes e then .ok (d :: e :: rest)
    else return e :: (← insertSorted d rest)

def sorted (items : List Datum) : Except (Datum × Datum) (List Datum) :=
  items.foldlM (fun done d => insertSorted d done) []

end Datum

end BuildConstants
