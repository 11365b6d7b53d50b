import JavaLint.Json.Basic
import JavaLint.Text.Utf8

/-!
Reading JSON text. The words `NaN`, `Infinity` and `-Infinity` are read as numbers. A text that is
not JSON is refused at an offset, counted in characters, at which no value can continue it.
-/
namespace JavaLint.Json

structure ReadError where malformed ::
  offset : Nat
  deriving DecidableEq, Repr

/-- What was read, the offset after it, and the text from there on. -/
abbrev Read (α : Type) := α × Nat × List Char

def isSpace (c : Char) : Bool := c == ' ' || c == '\t' || c == '\n' || c == '\r'

def skipSpace (offset : Nat) : List Char → Nat × List Char
  | [] => (offset, [])
  | c :: rest => if isSpace c then skipSpace (offset + 1) rest else (offset, c :: rest)

def hexValue? (c : Char) : Option Nat :=
  if '0' ≤ c && c ≤ '9' then some (c.toNat - 48)
  else if 'a' ≤ c && c ≤ 'f' then some (c.toNat - 87)
  else if 'A' ≤ c && c ≤ 'F' then some (c.toNat - 55)
  else none

def hexUnit? (a b c d : Char) : Option Nat := do
  return (((← hexValue? a) * 16 + (← hexValue? b)) * 16 + (← hexValue? c)) * 16 + (← hexValue? d)

def escaped? : Char → Option Char
  | '"' => some '"'
  | '\\' => some '\\'
  | '/' => some '/'
  | 'b' => some '\x08'
  | 'f' => some '\x0c'
  | 'n' => some '\n'
  | 'r' => some '\r'
  | 't' => some '\t'
  | _ => none

def isHighSurrogate (n : Nat) : Bool := 0xD800 ≤ n && n ≤ 0xDBFF

def isLowSurrogate (n : Nat) : Bool := 0xDC00 ≤ n && n ≤ 0xDFFF

/-- What an unpaired high surrogate leaves behind: it names no character. -/
def flush (high : Option Nat) : List Char := if high.isSome then [Text.replacement] else []

/-- The characters that a numbered escape completes, and the high surrogate it leaves open. -/
def readUnit (high : Option Nat) (unit : Nat) : List Char × Option Nat :=
  match high with
  | some first =>
    if isLowSurrogate unit then
      ([Char.ofNat (0x10000 + (first - 0xD800) * 0x400 + (unit - 0xDC00))], none)
    else if isHighSurrogate unit then (flush high, some unit)
    else (flush high ++ [Char.ofNat unit], none)
  | none =>
    if isHighSurrogate unit then ([], some unit)
    else if isLowSurrogate unit then ([Text.replacement], none)
    else ([Char.ofNat unit], none)

/-- The rest of a string whose opening quote stands at `start`, after an open high surrogate if
there is one. A numbered escape needs a further character behind its four digits. -/
def readString (start offset : Nat) (high : Option Nat) :
    List Char → Except ReadError (Read (List Char))
  | [] => .error (.malformed start)
  | '"' :: rest => .ok (flush high, offset + 1, rest)
  | '\\' :: 'u' :: a :: b :: c :: d :: e :: rest =>
    match hexUnit? a b c d with
    | none => .error (.malformed (offset + 1))
    | some unit => do
      let (done, high) := readUnit high unit
      let (text, next) ← readString start (offset + 6) high (e :: rest)
      return (done ++ text, next)
  | ['\\'] => .error (.malformed start)
  | '\\' :: 'u' :: _ => .error (.malformed (offset + 1))
  | '\\' :: c :: rest =>
    match escaped? c with
    | none => .error (.malformed offset)
    | some character => do
      let (text, next) ← readString start (offset + 2) none rest
      return (flush high ++ character :: text, next)
  | c :: rest =>
    if c.toNat < 0x20 then .error (.malformed offset)
    else do
      let (text, next) ← readString start (offset + 1) none rest
      return (flush high ++ c :: text, next)

def isDigit (c : Char) : Bool := '0' ≤ c && c ≤ '9'

def spanDigits (text : List Char) : List Char × List Char :=
  (text.takeWhile isDigit, text.dropWhile isDigit)

def digitsValue (digits : List Char) : Nat := Nat.ofDigitChars 10 digits 0

def readWhole : List Char → Option (List Char × List Char)
  | '0' :: rest => some (['0'], rest)
  | text =>
    match spanDigits text with
    | ([], _) => none
    | (digits, rest) => some (digits, rest)

def readFraction : List Char → List Char × List Char
  | '.' :: rest =>
    match spanDigits rest with
    | ([], _) => ([], '.' :: rest)
    | (digits, rest) => (digits, rest)
  | text => ([], text)

def readExponent (text : List Char) : Option (Int × Nat × List Char) :=
  match text with
  | mark :: rest =>
    if mark == 'e' || mark == 'E' then
      let (sign, signLength, digitsFrom) :=
        match rest with
        | '-' :: more => ((-1 : Int), 1, more)
        | '+' :: more => (1, 1, more)
        | more => (1, 0, more)
      match spanDigits digitsFrom with
      | ([], _) => none
      | (digits, after) =>
        some (sign * (digitsValue digits : Int), 1 + signLength + digits.length, after)
    else none
  | [] => none

def readNumber (negative : Bool) (start offset : Nat) (text : List Char) :
    Except ReadError (Read Json) :=
  match readWhole text with
  | none => .error (.malformed start)
  | some (whole, rest) =>
    let (fraction, rest) := readFraction rest
    let offset := offset + whole.length + (if fraction.isEmpty then 0 else fraction.length + 1)
    match readExponent rest with
    | some (power, length, rest) =>
      .ok (.real (.ofDecimal negative (digitsValue (whole ++ fraction)) (power - fraction.length)),
        offset + length, rest)
    | none =>
      if fraction.isEmpty then
        let n : Int := digitsValue whole
        .ok (.int (if negative then -n else n), offset, rest)
      else
        let power : Int := -fraction.length
        .ok (.real (.ofDecimal negative (digitsValue (whole ++ fraction)) power), offset, rest)

mutual

/-- A value at `offset`. The fuel bounds the number of steps. -/
def readValue (fuel offset : Nat) (text : List Char) : Except ReadError (Read Json) :=
  match fuel with
  | 0 => .error (.malformed offset)
  | fuel + 1 =>
    match text with
    | '"' :: rest => do
      let (characters, next) ← readString offset (offset + 1) none rest
      return (.str (String.ofList characters), next)
    | '\x7b' :: rest =>
      match skipSpace (offset + 1) rest with
      | (offset, '\x7d' :: rest) => .ok (.obj [], offset + 1, rest)
      | (offset, rest) => do
        let (members, next) ← readMembers fuel offset rest
        return (ofMembers members, next)
    | '[' :: rest =>
      match skipSpace (offset + 1) rest with
      | (offset, ']' :: rest) => .ok (.arr [], offset + 1, rest)
      | (offset, rest) => do
        let (items, next) ← readItems fuel offset rest
        return (.arr items, next)
    | 'n' :: 'u' :: 'l' :: 'l' :: rest => .ok (.null, offset + 4, rest)
    | 't' :: 'r' :: 'u' :: 'e' :: rest => .ok (.bool true, offset + 4, rest)
    | 'f' :: 'a' :: 'l' :: 's' :: 'e' :: rest => .ok (.bool false, offset + 5, rest)
    | 'N' :: 'a' :: 'N' :: rest => .ok (.real .nan, offset + 3, rest)
    | 'I' :: 'n' :: 'f' :: 'i' :: 'n' :: 'i' :: 't' :: 'y' :: rest =>
      .ok (.real (.infinite false), offset + 8, rest)
    | '-' :: 'I' :: 'n' :: 'f' :: 'i' :: 'n' :: 'i' :: 't' :: 'y' :: rest =>
      .ok (.real (.infinite true), offset + 9, rest)
    | '-' :: rest => readNumber true offset (offset + 1) rest
    | rest => readNumber false offset offset rest

def readItems (fuel offset : Nat) (text : List Char) : Except ReadError (Read (List Json)) :=
  match fuel with
  | 0 => .error (.malformed offset)
  | fuel + 1 => do
    let (item, offset, rest) ← readValue fuel offset text
    match skipSpace offset rest with
    | (offset, ']' :: rest) => return ([item], offset + 1, rest)
    | (offset, ',' :: rest) => do
      let (offset, rest) := skipSpace (offset + 1) rest
      let (items, next) ← readItems fuel offset rest
      return (item :: items, next)
    | (offset, _) => .error (.malformed offset)

def readMembers (fuel offset : Nat) (text : List Char) :
    Except ReadError (Read (List (String × Json))) :=
  match fuel with
  | 0 => .error (.malformed offset)
  | fuel + 1 =>
    match text with
    | '"' :: rest => do
      let (key, offset, rest) ← readString offset (offset + 1) none rest
      match skipSpace offset rest with
      | (offset, ':' :: rest) => do
        let (offset, rest) := skipSpace (offset + 1) rest
        let (value, offset, rest) ← readValue fuel offset rest
        let member := (String.ofList key, value)
        match skipSpace offset rest with
        | (offset, '\x7d' :: rest) => return ([member], offset + 1, rest)
        | (offset, ',' :: rest) => do
          let (offset, rest) := skipSpace (offset + 1) rest
          let (members, next) ← readMembers fuel offset rest
          return (member :: members, next)
        | (offset, _) => .error (.malformed offset)
      | (offset, _) => .error (.malformed offset)
    | _ => .error (.malformed offset)

end

/-- Reads a text that holds one value and nothing else. A byte order mark is not part of JSON. -/
def read (text : List Char) : Except ReadError Json :=
  if text.head? == some '\uFEFF' then .error (.malformed 0) else
    let (offset, rest) := skipSpace 0 text
    match readValue (2 * text.length + 2) offset rest with
    | .error e => .error e
    | .ok (value, offset, rest) =>
      match skipSpace offset rest with
      | (_, []) => .ok value
      | (offset, _) => .error (.malformed offset)

end JavaLint.Json
