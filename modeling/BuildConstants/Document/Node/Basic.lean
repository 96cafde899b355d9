import BuildConstants.Document.Token.Basic

/-!
# Nodes of a document

A document is a tree of nodes, in which aliases are replaced by what they stand for. The tag of a
node says what is made of it; the line is that of its first property or of the node itself. An
alias inside of the collection that it stands for is that collection while it is still empty.
-/

namespace BuildConstants.Document

inductive Tag
  | null
  | bool
  | int
  | float
  | text
  | date
  | merge
  | default
  | sequence
  | mapping
  | set
  | other (name : String)
  deriving DecidableEq

inductive Node
  | scalar (tag : Tag) (text : String) (line : Nat)
  | sequence (tag : Tag) (items : List Node)
  | mapping (tag : Tag) (entries : List (Node × Node))

namespace Tag

def standardExpansion : String := "tag:yaml.org,2002:"

def standardNames : List (String × Tag) := [
  ("null", null), ("bool", bool), ("int", int), ("float", float), ("str", text),
  ("timestamp", date), ("merge", merge), ("value", default), ("seq", sequence), ("map", mapping),
  ("set", set)]

def ofName (name : String) : Tag :=
  ((standardNames.find? fun e => standardExpansion ++ e.1 == name).map (·.2)).getD (other name)

end Tag

end BuildConstants.Document
