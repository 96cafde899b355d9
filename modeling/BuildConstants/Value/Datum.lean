import BuildConstants.Language
import BuildConstants.Number.Spelling
import BuildConstants.Text.Quoted

/-!
# Configuration values

A datum is a value as a configuration holds it: plain data, containers, members of enumerations,
scalars that already carry a kind, and the records and paths that typed reading produces. Sets
hold their elements in the order in which they are enumerated; maps keep insertion order.

Every datum has a written form, in which texts are quoted, and a display form, in which a text
stands for itself.
-/

namespace BuildConstants

open Number Text

inductive Datum
  | null
  | bool (value : Bool)
  | int (value : Int)
  | float (value : Binary64)
  | text (value : String)
  | bytes (octets : List UInt8)
  | date (year month day : Nat)
  | member (value : Member)
  | path (value : String)
  | list (items : List Datum)
  | tuple (items : List Datum)
  | set (items : List Datum)
  | frozenSet (items : List Datum)
  | map (entries : List (Datum × Datum))
  | scalar (kind : ScalarKind) (value : Datum)
  | record (name : String) (fields : List (String × Datum))
  /-- A value of any other sort, such as a date with a time, by its two forms. -/
  | object (sort written shown : String)

namespace Datum

def typeName : Datum → String
  | null => "NoneType"
  | bool _ => "bool"
  | int _ => "int"
  | float _ => "float"
  | text _ => "str"
  | bytes _ => "bytes"
  | date .. => "date"
  | member m => m.enumeration.name
  | path _ => "PosixPath"
  | list _ => "list"
  | tuple _ => "tuple"
  | set _ => "set"
  | frozenSet _ => "frozenset"
  | map _ => "dict"
  | scalar .. => "Scalar"
  | record name _ => name
  | object sort _ _ => sort

def boolText (b : Bool) : String :=
  if b then "True" else "False"

def commaSeparated (items : List String) : String :=
  String.intercalate ", " items

def braced (items : List String) : String :=
  "\x7b" ++ commaSeparated items ++ "\x7d"

def memberForm (m : Member) : String :=
  "<" ++ m.label ++ ": " ++ quoted m.name ++ ">"

def tupleForm : List String → String
  | [item] => "(" ++ item ++ ",)"
  | items => "(" ++ commaSeparated items ++ ")"

mutual

def written : Datum → String
  | null => "None"
  | bool b => boolText b
  | int n => Int.repr n
  | float x => x.text
  | text s => quoted s
  | bytes octets => quotedOctets octets
  | date y m d => "datetime.date" ++ tupleForm [Nat.repr y, Nat.repr m, Nat.repr d]
  | member m => memberForm m
  | path s => "PosixPath(" ++ quoted s ++ ")"
  | list items => "[" ++ commaSeparated (writtenItems items) ++ "]"
  | tuple items => tupleForm (writtenItems items)
  | set items => if items.isEmpty then "set()" else braced (writtenItems items)
  | frozenSet items =>
    if items.isEmpty then "frozenset()" else "frozenset(" ++ braced (writtenItems items) ++ ")"
  | map entries => braced (writtenEntries entries)
  | scalar k v => "Scalar(kind=" ++ memberForm (.scalarKind k) ++ ", value=" ++ v.written ++ ")"
  | record name fields => name ++ "(" ++ commaSeparated (writtenFields fields) ++ ")"
  | object _ form _ => form

def writtenItems : List Datum → List String
  | [] => []
  | d :: rest => d.written :: writtenItems rest

def writtenEntries : List (Datum × Datum) → List String
  | [] => []
  | (k, v) :: rest => (k.written ++ ": " ++ v.written) :: writtenEntries rest

def writtenFields : List (String × Datum) → List String
  | [] => []
  | (name, v) :: rest => (name ++ "=" ++ v.written) :: writtenFields rest

end

/-- Zero, emptiness and absence are false; everything else is true. -/
def truth : Datum → Bool
  | null => false
  | bool b => b
  | int n => n != 0
  | float x => !x.isZero
  | text s => !s.isEmpty
  | bytes octets => !octets.isEmpty
  | list items | tuple items | set items | frozenSet items => !items.isEmpty
  | map entries => !entries.isEmpty
  | date .. | member _ | path _ | scalar .. | record .. | object .. => true

def twoDigits (n : Nat) : String :=
  if n < 10 then "0" ++ Nat.repr n else Nat.repr n

def dateText (year month day : Nat) : String :=
  String.ofList (zeros (4 - (Nat.repr year).length)) ++ Nat.repr year ++ "-" ++ twoDigits month
    ++ "-" ++ twoDigits day

/-- The display form. A boolean scalar shows the truth of its value. -/
def display : Datum → String
  | text s => s
  | path s => s
  | member m => m.label
  | date y m d => dateText y m d
  | scalar .boolean v => if v.truth then "true" else "false"
  | scalar _ v => v.display
  | object _ _ form => form
  | d => d.written

/-- The characters of a datum that is text: a text, or a member by its name. -/
def text? : Datum → Option String
  | text s => some s
  | member m => some m.name
  | _ => none

def int? : Datum → Option Int
  | bool b => some (if b then 1 else 0)
  | int n => some n
  | _ => none

end Datum

end BuildConstants
