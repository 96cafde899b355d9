import BuildConstants.Text.Blank
import BuildConstants.Text.Lowercase
import BuildConstants.Value.Kind

/-!
# Built-in types

Every built-in type has a canonical name and further spellings, the qualified names of both
target languages among them. Blanks around a spelling and its case do not matter.
-/

namespace BuildConstants

open Text

inductive Builtin
  | boolean
  | byte
  | short
  | char
  | int
  | long
  | float
  | double
  | string
  | list
  | set
  deriving DecidableEq

namespace Builtin

def all : List Builtin :=
  [boolean, byte, short, char, int, long, float, double, string, list, set]

/-- The spellings in lower case, the canonical name first. -/
def spellings : Builtin → List String
  | boolean => ["boolean", "java.lang.boolean", "kotlin.boolean"]
  | byte => ["byte", "java.lang.byte", "kotlin.byte"]
  | short => ["short", "java.lang.short", "kotlin.short"]
  | char => ["char", "character", "java.lang.character", "kotlin.char"]
  | int => ["int", "integer", "java.lang.integer", "kotlin.int"]
  | long => ["long", "java.lang.long", "kotlin.long"]
  | float => ["float", "java.lang.float", "kotlin.float"]
  | double => ["double", "java.lang.double", "kotlin.double"]
  | string => ["string", "java.lang.string", "kotlin.string"]
  | list => ["list", "java.util.list", "kotlin.collections.list"]
  | set => ["set", "java.util.set", "kotlin.collections.set"]

def name : Builtin → String
  | boolean => "boolean"
  | byte => "byte"
  | short => "short"
  | char => "char"
  | int => "int"
  | long => "long"
  | float => "float"
  | double => "double"
  | string => "string"
  | list => "list"
  | set => "set"

def ofSpelling? (s : String) : Option Builtin :=
  all.find? fun b => b.spellings.contains s

def ofName? (s : String) : Option Builtin :=
  ofSpelling? (lowercase (trim s))

def primitive? : Builtin → Option ScalarKind
  | boolean => some .boolean
  | byte => some .byte
  | short => some .short
  | char => some .char
  | int => some .int
  | long => some .long
  | float => some .float
  | double => some .double
  | string | list | set => none

def scalarKind? : Builtin → Option ScalarKind
  | string => some .string
  | b => b.primitive?

end Builtin

end BuildConstants
