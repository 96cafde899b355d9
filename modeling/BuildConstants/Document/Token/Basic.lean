import BuildConstants.Document.Cursor

/-!
# Tokens of a document

Indentation shows as tokens that open and close blocks. A tag names its handle, if it has one,
and its suffix. A scalar says whether it is plain.
-/

namespace BuildConstants.Document

inductive Directive
  | version (major minor : Nat)
  | tagHandle (handle expansion : String)
  | unknown

inductive TokenKind
  | directive (value : Directive)
  | documentStart
  | documentEnd
  | blockSequenceStart
  | blockMappingStart
  | blockEnd
  | flowSequenceStart
  | flowSequenceEnd
  | flowMappingStart
  | flowMappingEnd
  | flowEntry
  | blockEntry
  | key
  | value
  | alias (name : String)
  | anchor (name : String)
  | tag (handle : Option String) (suffix : String)
  | scalar (text : String) (plain : Bool)
  | streamEnd

structure Token where
  kind : TokenKind
  line : Nat

abbrev Checked : Type → Type := Except DocumentProblem

end BuildConstants.Document
