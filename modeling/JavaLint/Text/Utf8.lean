/-!
UTF-8. Decoding reads one byte at a time and keeps what an unfinished character still needs. A byte
that cannot continue it ends the unfinished part, and each such part stands for one undecodable
unit, so that the lossy reading puts one replacement character for each maximal ill-formed part.
-/
namespace JavaLint.Text

abbrev Bytes := List UInt8

/-- What an unfinished character has collected, how many bytes follow the next one, and the range
in which the next byte has to lie. -/
structure Partial where
  collected : Nat
  remaining : Nat
  low : UInt8
  high : UInt8
  deriving DecidableEq, Repr

inductive Lead where
  | single (c : Char)
  | opens (p : Partial)
  | invalid
  deriving DecidableEq, Repr

def lead (b : UInt8) : Lead :=
  if b < 0x80 then .single (Char.ofNat b.toNat)
  else if b < 0xC2 then .invalid
  else if b < 0xE0 then .opens ⟨b.toNat - 0xC0, 0, 0x80, 0xBF⟩
  else if b == 0xE0 then .opens ⟨0, 1, 0xA0, 0xBF⟩
  else if b == 0xED then .opens ⟨0xD, 1, 0x80, 0x9F⟩
  else if b < 0xF0 then .opens ⟨b.toNat - 0xE0, 1, 0x80, 0xBF⟩
  else if b == 0xF0 then .opens ⟨0, 2, 0x90, 0xBF⟩
  else if b < 0xF4 then .opens ⟨b.toNat - 0xF0, 2, 0x80, 0xBF⟩
  else if b == 0xF4 then .opens ⟨4, 2, 0x80, 0x8F⟩
  else .invalid

def readByte (state : Option Partial) (b : UInt8) : List (Option Char) × Option Partial :=
  let fresh (done : List (Option Char)) : List (Option Char) × Option Partial :=
    match lead b with
    | .single c => (done ++ [some c], none)
    | .opens p => (done, some p)
    | .invalid => (done ++ [none], none)
  match state with
  | none => fresh []
  | some p =>
    if p.low ≤ b && b ≤ p.high then
      let collected := p.collected * 64 + (b.toNat - 0x80)
      match p.remaining with
      | 0 => ([some (Char.ofNat collected)], none)
      | more + 1 => ([], some ⟨collected, more, 0x80, 0xBF⟩)
    else fresh [none]

/-- The characters of a byte string, `none` for each maximal ill-formed part. -/
def unitsFrom (state : Option Partial) : Bytes → List (Option Char)
  | [] => if state.isSome then [none] else []
  | b :: rest =>
    let (done, next) := readByte state b
    done ++ unitsFrom next rest

def units (bytes : Bytes) : List (Option Char) := unitsFrom none bytes

def replacement : Char := '�'

def decodeLossy (bytes : Bytes) : List Char := (units bytes).map (·.getD replacement)

def decode? (bytes : Bytes) : Option (List Char) := (units bytes).mapM id

def encode (text : List Char) : Bytes := text.flatMap String.utf8EncodeChar

end JavaLint.Text
