/-!
Searching and cutting texts. Every function works on the list of characters; the versions on
`String` are thin.
-/
namespace JavaLint.Text

def occurs (pattern : List Char) : List Char → Bool
  | [] => pattern.isEmpty
  | c :: rest => pattern.isPrefixOf (c :: rest) || occurs pattern rest

def contains (text pattern : String) : Bool := occurs pattern.toList text.toList

def startsWith (text start : String) : Bool := start.toList.isPrefixOf text.toList

/-- `test` holds at some position: it sees the text from there on. -/
def someSuffix (test : List Char → Bool) : List Char → Bool
  | [] => test []
  | c :: rest => test (c :: rest) || someSuffix test rest

def splitAt (separator : Char) : List Char → List (List Char)
  | [] => [[]]
  | c :: rest =>
    if c == separator then [] :: splitAt separator rest
    else match splitAt separator rest with
      | [] => [[c]]
      | piece :: pieces => (c :: piece) :: pieces

def beforeFirst (separator : Char) (text : List Char) : List Char :=
  text.takeWhile (· != separator)

def afterLast (separator : Char) (text : List Char) : List Char :=
  (text.reverse.takeWhile (· != separator)).reverse

/-- The end of a text: nothing is left, or one final line break. -/
def atEnd (text : List Char) : Bool := text == [] || text == ['\n']

def dropFinalBreak (text : List Char) : List Char :=
  if text.getLast? == some '\n' then text.dropLast else text

def join (separator : List Char) (pieces : List (List Char)) : List Char :=
  List.intercalate separator pieces

def joinLines (lines : List String) : String := "\n".intercalate lines

/-- A line break written as a carriage return, alone or before a line feed, becomes a line feed. -/
def unifyBreaks : List Char → List Char
  | [] => []
  | '\r' :: '\n' :: rest => '\n' :: unifyBreaks rest
  | '\r' :: rest => '\n' :: unifyBreaks rest
  | c :: rest => c :: unifyBreaks rest

end JavaLint.Text
