import JavaLint.Text.Search

/-!
The form of rule identifiers: two to four capitals, then words of capitals, digits and underscores
the first of which starts with a capital, then a number of three digits, all joined by underscores.
-/
namespace JavaLint.Rule

def isCapital (c : Char) : Bool := 'A' ≤ c && c ≤ 'Z'

def isFigure (c : Char) : Bool := '0' ≤ c && c ≤ '9'

def isNameChar (c : Char) : Bool := isCapital c || isFigure c || c == '_'

/-- What follows the first capital of the name: name characters, an underscore and three digits. -/
def isNumberedTail (text : List Char) : Bool :=
  match text.reverse with
  | a :: b :: c :: '_' :: middle =>
    isFigure a && isFigure b && isFigure c && middle.all isNameChar
  | _ => false

def isExactIdentifier (text : List Char) : Bool :=
  let family := text.takeWhile isCapital
  2 ≤ family.length && family.length ≤ 4 &&
    match text.dropWhile isCapital with
    | '_' :: first :: tail => isCapital first && isNumberedTail tail
    | _ => false

def isIdentifier (text : String) : Bool := isExactIdentifier (Text.dropFinalBreak text.toList)

def isOptionalIdentifier (text : String) : Bool :=
  let core := Text.dropFinalBreak text.toList
  core == [] || isExactIdentifier core

def optionalPattern : String := "^([A-Z]\x7b2,4\x7d_[A-Z][A-Z0-9_]*_[0-9]\x7b3\x7d)?$"

end JavaLint.Rule
