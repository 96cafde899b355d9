import BuildConstants.TypeExpr.Parser
import BuildConstants.Value.Datum

/-!
# What can go wrong

Every error of the program is a fault that says what happened; the wording is one function. Three
families have a type of their own: errors of the file system, problems of a configuration value,
which come with the path to it, and problems of a document.
-/

namespace BuildConstants

open Number Text

/-- Errors of the file system that callers tell apart. -/
inductive Errno
  | noEntry
  | busy
  | exists
  | notDirectory
  | isDirectory
  deriving DecidableEq

inductive SystemError
  | noEntry
  | busy
  | exists
  | notDirectory
  | isDirectory
  | nameTooLong
  | other (number : Nat) (text : String)
  deriving DecidableEq

namespace SystemError

/-- Callers take an error for a busy device if it has no sort of its own. -/
def errno : SystemError → Errno
  | noEntry => .noEntry
  | busy | nameTooLong | other .. => .busy
  | .exists => .exists
  | notDirectory => .notDirectory
  | isDirectory => .isDirectory

def message : SystemError → String
  | noEntry => "[Errno 2] No such file or directory"
  | busy => "[Errno 16] Device or resource busy"
  | .exists => "[Errno 17] File exists"
  | notDirectory => "[Errno 20] Not a directory"
  | isDirectory => "[Errno 21] Is a directory"
  | nameTooLong => "[Errno 36] File name too long"
  | other number text => "[Errno " ++ Nat.repr number ++ "] " ++ text

/-- Errors that mean that nothing is there: no entry, no directory on the way, a bad descriptor or a
loop of links. -/
def isAbsence : SystemError → Bool
  | noEntry | notDirectory => true
  | other number _ => [2, 9, 20, 40].contains number
  | _ => false

end SystemError

/-- A failed call of the file system on a path, or on a path and its new name. -/
structure FileError where
  cause : SystemError
  path : String
  target : Option String

namespace FileError

def errno (e : FileError) : Errno :=
  e.cause.errno

def message (e : FileError) : String :=
  e.cause.message ++ ": " ++ quoted e.path ++
    match e.target with
    | some t => " -> " ++ quoted t
    | none => ""

end FileError

inductive ConfigProblem
  | expected (wanted found : String)
  | notAMapping (record found : String)
  | unexpectedKeys (keys : List Datum)
  | unorderedKeys (record : String) (left right : Datum)
  | missing
  | notConvertible (found wanted : String)
  | notAmong (choices : String) (found : Datum)
  | shorthand (error : ShorthandError)
  | notAType (found : String)
  | valueAndExpression

def incomparableMessage (left right : Datum) : String :=
  "'<' not supported between instances of '" ++ left.typeName ++ "' and '" ++ right.typeName ++ "'"

def ConfigProblem.message : ConfigProblem → String
  | expected wanted found => "expected " ++ wanted ++ ", got " ++ found
  | notAMapping record found => "expected mapping for " ++ record ++ ", got " ++ found
  | unexpectedKeys keys => "unexpected keys: " ++ (Datum.list keys).written
  | unorderedKeys record left right =>
    "failed to build " ++ record ++ ": " ++ incomparableMessage left right
  | missing => "required field missing"
  | notConvertible found wanted => "cannot coerce " ++ found ++ " \u2192 " ++ wanted
  | notAmong choices found => "expected one of " ++ choices ++ ", got " ++ found.written
  | shorthand error => error.message
  | notAType found => "expected type string or mapping, got " ++ found
  | valueAndExpression => "'value' and 'expression' are mutually exclusive"

inductive NumberError
  | notInteger (base : Nat) (text : String)
  | notDouble (written : String)
  | notNumeric (sort : String)
  | tooLarge

/-- Only the first 200 characters of a text that is no integer are shown. -/
def NumberError.message : NumberError → String
  | notInteger base text =>
    "invalid literal for int() with base " ++ Nat.repr base ++ ": "
      ++ String.ofList ((quoted text).toList.take 200)
  | notDouble written => "could not convert string to float: " ++ written
  | notNumeric sort => "float() argument must be a string or a real number, not '" ++ sort ++ "'"
  | tooLarge => "int too large to convert to float"

inductive DocumentProblem
  /-- The text is not a document, or its nodes cannot be constructed. -/
  | invalid
  | kindTag (line : Nat) (kind : ScalarKind) (text : String)
  | number (error : NumberError)
  | yearOutOfRange (year : Nat)
  | monthOutOfRange
  | dayOutOfRange
  | codePointOutOfRange
  | emptyNumber
  | unknownBoolean (text : String)
  | unusableKey

inductive Fault
  | shorthand (error : ShorthandError)
  | unknownType (name : String)
  | argumentsNotAllowed (name : String)
  | argumentCount (name : String) (count : Nat)
  | noElementType
  | noPrimitiveName (kind : ScalarKind)
  | unknownMember (enumeration : Enumeration) (text : String)
  | number (error : NumberError)
  | notSingleChar (text : String)
  | nullElement
  | missingArgument (template : String) (consumed : Nat)
  | unusedArguments (template : String) (consumed given : Nat)
  | notBoolean (value : Datum)
  | notInteger (value : Datum)
  | outOfRange (value : Int) (kind : ScalarKind)
  | notFinite (kind : ScalarKind) (value : Binary64)
  | beyondFloat (value : Binary64)
  | reservedWord (name : String)
  | notJavaName (name : String)
  | notKotlinName (name : String)
  | countMismatch (field type : String) (expected actual : Nat)
  | constant (field type value sort : String) (cause : Fault)
  | incomparable (left right : Datum)
  | config (path : List String) (problem : ConfigProblem)
  | document (file : String) (problem : DocumentProblem)
  /-- A document library refuses the text, in words of its own. -/
  | malformedDocument (file text : String)
  | documentNotMapping (file : String)
  | requestNotFound (file : String)
  /-- The system fails to look at a request file or to read it. -/
  | unreadable (error : FileError)
  | emptyFileName (path : String)
  | nulInPath
  | unencodable (first last : Nat) (code : Nat)
  | unencodablePath (first last : Nat) (code : Nat)
  | unwritable (path : String) (error : FileError)
  | ungrammatical (path : String) (problems : List String)
  /-- A value error from outside, in words of its own. -/
  | reported (text : String)

def DocumentProblem.message (file : String) : DocumentProblem → String
  | invalid => "Invalid YAML in " ++ file
  | kindTag line kind text =>
    "line " ++ Nat.repr line ++ ": invalid " ++ kind.name ++ " value " ++ quoted text
  | number error => error.message
  | yearOutOfRange year => "year " ++ Nat.repr year ++ " is out of range"
  | monthOutOfRange => "month must be in 1..12"
  | dayOutOfRange => "day is out of range for month"
  | codePointOutOfRange => "chr() arg not in range(0x110000)"
  | emptyNumber => "string index out of range"
  | unknownBoolean text => quoted text
  | unusableKey => "unhashable type"

namespace Fault

def unencodableMessage (first last code : Nat) : String :=
  if first = last then
    "'utf-8' codec can't encode character '\\u" ++ String.ofList (hexDigits 4 code)
      ++ "' in position " ++ Nat.repr first ++ ": surrogates not allowed"
  else
    "'utf-8' codec can't encode characters in position " ++ Nat.repr first ++ "-"
      ++ Nat.repr last ++ ": surrogates not allowed"

def message : Fault → String
  | shorthand error => error.message
  | unknownType name =>
    "Cannot resolve type '" ++ name ++ "': not a built-in type and not registered"
  | argumentsNotAllowed name =>
    "Cannot resolve type '" ++ name ++ "': type arguments given for a non-container type"
  | argumentCount name count =>
    "Cannot resolve type '" ++ name ++ "': expected 1 type argument, got " ++ Nat.repr count
  | noElementType => "Unsupported output type: None"
  | noPrimitiveName kind => Datum.memberForm (.scalarKind kind)
  | unknownMember e s => quoted s ++ " is not a valid " ++ e.name
  | number error => error.message
  | notSingleChar s => "not a single UTF-16 char: " ++ quoted s
  | nullElement => "primitive arrays cannot hold null"
  | missingArgument template consumed =>
    "template " ++ quoted template ++ " needs more than " ++ Nat.repr consumed ++ " arguments"
  | unusedArguments template consumed given =>
    "template " ++ quoted template ++ " consumed " ++ Nat.repr consumed ++ " of "
      ++ Nat.repr given ++ " arguments"
  | notBoolean value => "not a boolean: " ++ value.written
  | notInteger value => "not an integer: " ++ value.written
  | outOfRange value kind => Int.repr value ++ " out of range for " ++ kind.name
  | notFinite kind value => "non-finite " ++ kind.name ++ " cannot be a literal: " ++ value.text
  | beyondFloat value => value.text ++ " out of range for float"
  | reservedWord name => "'" ++ name ++ "' is a reserved Java keyword"
  | notJavaName name => "'" ++ name ++ "' is not a valid Java identifier"
  | notKotlinName name => "'" ++ name ++ "' cannot be used as a Kotlin name"
  | countMismatch field type expected actual =>
    "Invalid number of arguments for " ++ field ++ " of type " ++ type ++ ": expected "
      ++ Nat.repr expected ++ ", got " ++ Nat.repr actual
  | constant field type value sort cause =>
    "Failed to generate field '" ++ field ++ "' of type '" ++ type ++ "', with value: " ++ value
      ++ " (of type '" ++ sort ++ "'): " ++ cause.message
  | incomparable left right => incomparableMessage left right
  | config path problem =>
    (if path.isEmpty then "" else String.intercalate "." path ++ ": ") ++ problem.message
  | document file problem => problem.message file
  | malformedDocument file text => "Invalid YAML in " ++ file ++ ": " ++ text
  | documentNotMapping file => "YAML must be a mapping: " ++ file
  | requestNotFound file => "Request file not found: " ++ file
  | unreadable error => error.message
  | emptyFileName path => "PosixPath(" ++ quoted path ++ ") has an empty name"
  | nulInPath => "embedded null byte"
  | unencodable first last code | unencodablePath first last code =>
    unencodableMessage first last code
  | unwritable path error => "Cannot write " ++ path ++ ": " ++ error.message
  | ungrammatical path problems =>
    "Generated source " ++ path ++ " has syntax errors: " ++ String.intercalate "; " problems
  | reported text => text

/-- Callers tell faults apart by family before they read the wording. -/
inductive Family
  | value
  | encoding
  | sort
  | key
  | index
  | overflow
  | resolution
  | argumentCount
  | constant
  | coercion
  | configuration
  | output
  | grammar
  deriving DecidableEq

end Fault

def NumberError.family : NumberError → Fault.Family
  | notInteger .. | notDouble _ => .value
  | notNumeric _ => .sort
  | tooLarge => .overflow

def DocumentProblem.family : DocumentProblem → Fault.Family
  | invalid | kindTag .. => .configuration
  | number error => error.family
  | yearOutOfRange _ | monthOutOfRange | dayOutOfRange | codePointOutOfRange => .value
  | emptyNumber => .index
  | unknownBoolean _ => .key
  | unusableKey => .sort

def Fault.family : Fault → Family
  | shorthand _ | unknownMember .. | notSingleChar _ | nullElement | missingArgument ..
  | unusedArguments .. | notBoolean _ | notInteger _ | outOfRange .. | notFinite ..
  | beyondFloat _ | reservedWord _ | notJavaName _ | notKotlinName _ | emptyFileName _
  | nulInPath | reported _ => .value
  | unencodable .. | unencodablePath .. => .encoding
  | unknownType _ | argumentsNotAllowed _ | argumentCount .. => .resolution
  | noElementType | incomparable .. => .sort
  | noPrimitiveName _ => .key
  | number error => error.family
  | countMismatch .. => .argumentCount
  | constant .. => .constant
  | config .. => .coercion
  | document _ problem => problem.family
  | malformedDocument .. | documentNotMapping _ | requestNotFound _ => .configuration
  | unreadable _ | unwritable .. => .output
  | ungrammatical .. => .grammar

end BuildConstants
