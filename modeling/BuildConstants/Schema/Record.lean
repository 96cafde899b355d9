import BuildConstants.Schema.Read

/-!
# Fields of records

What a record holds under a name, as the sort that its schema promises.
-/

namespace BuildConstants

namespace Datum

/-- The value of a field; null where there is none. -/
def recordField (d : Datum) (name : String) : Datum :=
  match d with
  | record _ fields => ((fields.find? (·.1 == name)).map (·.2)).getD null
  | _ => null

def textField (d : Datum) (name : String) : String :=
  (d.recordField name).text?.getD ""

def optionalTextField (d : Datum) (name : String) : Option String :=
  (d.recordField name).text?

def flagField (d : Datum) (name : String) : Bool :=
  match d.recordField name with
  | bool b => b
  | _ => false

def listField (d : Datum) (name : String) : List Datum :=
  match d.recordField name with
  | list items => items
  | _ => []

def mapField (d : Datum) (name : String) : List (Datum × Datum) :=
  match d.recordField name with
  | map entries => entries
  | _ => []

end Datum

end BuildConstants
