/-!
Templates. A name in braces stands for a text that is put in its place, and a doubled brace for the
brace itself. What is put in is not read again. A name without its closing brace, or a closing brace
alone, stands in no template here.
-/
namespace JavaLint.Text

inductive Piece where
  | character (c : Char)
  | field (name : String)
  deriving DecidableEq, Repr

/-- The pieces of a template, where `name` is what has been read behind an opening brace. -/
def piecesFrom : (name : Option (List Char)) → List Char → List Piece
  | _, [] => []
  | some name, '\x7d' :: rest => .field (String.ofList name) :: piecesFrom none rest
  | some name, c :: rest => piecesFrom (some (name ++ [c])) rest
  | none, '\x7b' :: '\x7b' :: rest => .character '\x7b' :: piecesFrom none rest
  | none, '\x7d' :: '\x7d' :: rest => .character '\x7d' :: piecesFrom none rest
  | none, '\x7b' :: rest => piecesFrom (some []) rest
  | none, c :: rest => .character c :: piecesFrom none rest

def Piece.fill (field : String → List Char) : Piece → List Char
  | .character c => [c]
  | .field name => field name

def fillTemplate (field : String → List Char) (template : List Char) : List Char :=
  (piecesFrom none template).flatMap (Piece.fill field)

end JavaLint.Text
