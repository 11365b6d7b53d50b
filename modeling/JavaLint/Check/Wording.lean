import JavaLint.Text.Caseless
import JavaLint.Text.Search
import JavaLint.Text.Word

/-!
Words that give a text away: SQL keywords, names of secrets, placeholders, and weak algorithms. All
are recognised without regard to case, except templates in braces.
-/
namespace JavaLint.Check.Wording

def sqlKeywords : List String :=
  ["select", "insert", "update", "delete", "drop", "alter", "create", "union", "where", "exec"]

def isWordBreak (c : Option Char) : Bool := !c.any Text.isWord

def keywordAt (text : List Char) : Bool :=
  sqlKeywords.any fun keyword =>
    match Text.dropWord? keyword.toList text with
    | some rest => isWordBreak rest.head?
    | none => false

/-- A whole word is a keyword; `before` is the character before the text. -/
def keywordFrom (before : Option Char) : List Char → Bool
  | [] => false
  | c :: rest => (isWordBreak before && keywordAt (c :: rest)) || keywordFrom (some c) rest

def hasSqlKeyword (text : String) : Bool := keywordFrom none text.toList

/-- Names of secrets; an underscore may stand between the two parts. -/
def secretNames : List (String × String) :=
  [("password", ""), ("passwd", ""), ("pwd", ""), ("secret", ""), ("api", "key"),
   ("auth", "token"), ("access", "token"), ("private", "key"), ("encryption", "key"),
   ("credential", "")]

def secretNameAt (text : List Char) : Bool :=
  secretNames.any fun (first, second) =>
    match Text.dropWord? first.toList text with
    | none => false
    | some rest =>
      Text.startsWithWord second.toList rest || Text.startsWithWord ('_' :: second.toList) rest

def isSecretName (name : String) : Bool := Text.someSuffix secretNameAt name.toList

def placeholderStarts : List String := ["your", "my", "example", "test", "dummy", "fake"]

def placeholderWords : List String := ["xxx", "placeholder", "changeme", "fixme", "todo"]

/-- `start`, any characters but line breaks, and a closing brace at the end. -/
def isTemplate (start : List Char) (text : List Char) : Bool :=
  start.isPrefixOf text &&
    match (Text.dropFinalBreak (text.drop start.length)).reverse with
    | '\x7d' :: middle => !middle.contains '\n'
    | _ => false

def isPlaceholder (text : List Char) : Bool :=
  placeholderStarts.any (fun word => Text.startsWithWord word.toList text) ||
    placeholderWords.any (fun word => Text.someSuffix (Text.startsWithWord word.toList) text) ||
    isTemplate ['$', '\x7b'] text || isTemplate ['\x7b'] text

def looksLikeRealSecret (value : String) : Bool :=
  value.toList.length ≥ 4 && !isPlaceholder value.toList

def weakDigests : List String := ["MD2", "MD4", "MD5", "SHA1", "SHA-1"]

/-- The upper case of a character where it is ASCII. No other character has an upper case that
occurs in the name of a digest. -/
def upperLetter (c : Char) : Char :=
  if c == 'ſ' then 'S' else if c == 'ı' then 'I' else c.toUpper

def isWeakDigest (name : String) : Bool :=
  weakDigests.contains (String.ofList (name.toList.map upperLetter))

def weakCiphers : List String := ["des", "desede", "rc2", "rc4"]

def endsComponent (text : List Char) : Bool := text.head? == some '/' || Text.atEnd text

def componentAt (names : List String) (text : List Char) : Bool :=
  names.any fun name =>
    match Text.dropWord? name.toList text with
    | some rest => endsComponent rest
    | none => false

/-- A weak cipher as a component, or the ECB mode as a component behind the first. -/
def isWeakCipher (name : String) : Bool :=
  componentAt weakCiphers name.toList ||
    Text.someSuffix (fun text =>
      match text with
      | '/' :: rest => componentAt weakCiphers rest || componentAt ["ecb"] rest
      | _ => false) name.toList

end JavaLint.Check.Wording
