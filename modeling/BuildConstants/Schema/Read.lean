import BuildConstants.Schema.Basic
import BuildConstants.Schema.Reader

/-!
# Reading values by a schema

Reading converts a value to what its schema says, or names the place where it does not fit. A
record first refuses unknown keys, then reads its fields in their declared order.
-/

namespace BuildConstants

namespace Schema

mutual

def read : Schema → Reader
  | any => fun _ d => .ok d
  | text => Reader.text
  | integer => Reader.integer
  | double => Reader.double
  | boolean => Reader.boolean
  | oneOf choices => Reader.oneOf choices
  | member e => Reader.member e
  | optional s => fun place d => match d with
    | .null => .ok .null
    | d => s.read place d
  | either first second => fun place d => match first.read place d with
    | .ok v => .ok v
    | .error _ => second.read place d
  | list element => Reader.list element.read
  | map key value => Reader.map key.read value.read
  | items => Reader.items
  | entries => Reader.pairs
  | path => Reader.path
  | record name fields => fun place d => match d with
    | .map es => do
      Reader.refuseUnknown place (fields.map (·.1)) es
      let read ← readFields fields place es
      return .record name read
    | d => .error (.config place (.notAMapping name d.typeName))

def readFields : List (String × Schema × Option Datum) → List String → List (Datum × Datum) →
    Except Fault (List (String × Datum))
  | [], _, _ => .ok []
  | (name, schema, default) :: rest, place, es => do
    let value ← match Datum.field? es name, default with
      | some d, _ => schema.read (place ++ [name]) d
      | none, some d => .ok d
      | none, none => .error (.config (place ++ [name]) .missing)
    let others ← readFields rest place es
    return (name, value) :: others

end

/-- Reads a record; keys without an order are a problem of the record. -/
def build (schema : Schema) (name : String) (place : List String) (d : Datum) :
    Except Fault Datum :=
  match schema.read place d with
  | .error (.incomparable left right) => .error (.config place (.unorderedKeys name left right))
  | result => result

end Schema

end BuildConstants
