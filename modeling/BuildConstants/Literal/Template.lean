/-!
# Templates

A template is a text with holes for arguments: `%L` for plain literals, `%S` for strings and `%C`
for chars; `%%` is a percent sign. A percent sign in front of anything else stands for itself.
Reading goes from left to right without overlaps.
-/

namespace BuildConstants.Literal

inductive Hole
  | plain
  | string
  | char
  deriving DecidableEq

inductive Piece
  | letter (c : Char)
  | hole (h : Hole)
  deriving DecidableEq

def pieces : List Char → List Piece
  | [] => []
  | '%' :: '%' :: rest => .letter '%' :: pieces rest
  | '%' :: 'L' :: rest => .hole .plain :: pieces rest
  | '%' :: 'S' :: rest => .hole .string :: pieces rest
  | '%' :: 'C' :: rest => .hole .char :: pieces rest
  | c :: rest => .letter c :: pieces rest

def Piece.isHole : Piece → Bool
  | hole _ => true
  | letter _ => false

def countHoles (template : String) : Nat :=
  (pieces template.toList).countP (·.isHole)

structure Template where
  text : String
  count : Nat
  deriving DecidableEq

namespace Template

def ofText (text : String) : Template :=
  ⟨text, countHoles text⟩

def whole : Template := ⟨"%L", 1⟩

structure Brackets where
  opening : String
  closing : String
  deriving DecidableEq

def join (separator : String) (b : Brackets) (parts : List Template) : Template :=
  ⟨b.opening ++ String.intercalate separator (parts.map (·.text)) ++ b.closing,
    parts.foldr (fun p n => p.count + n) 0⟩

end Template

end BuildConstants.Literal
