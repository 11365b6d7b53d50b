import JavaLint.Text.Blank
import JavaLint.Text.DecimalDigit
import JavaLint.Text.Quoted

/-!
Integers written in decimal. A written integer may be surrounded by blanks, may carry a sign, may
use the decimal digits of any script, and may group its digits with single underscores. Integers of
any length are written and read, here and in JSON; the bound that some machines set on the number of
digits is left out.
-/
namespace JavaLint.Numeral

def decimal : Int → List Char
  | .ofNat n => Nat.toDigits 10 n
  | .negSucc n => '-' :: Nat.toDigits 10 (n + 1)

structure IntegerError where
  text : String
  deriving DecidableEq, Repr

def IntegerError.message (error : IntegerError) : String :=
  "invalid literal for int() with base 10: " ++ Text.quote error.text

/-- Digits with single underscores between them. `value` is what stands before, and `afterDigit`
tells whether the last character was a digit. -/
def readDigits (value : Nat) (afterDigit : Bool) : List Char → Option Nat
  | [] => if afterDigit then some value else none
  | c :: rest =>
    match Text.digitValue? c with
    | some d => readDigits (value * 10 + d) true rest
    | none => if c == '_' && afterDigit then readDigits value false rest else none

def readSigned : List Char → Option Int
  | '+' :: rest => (readDigits 0 false rest).map Int.ofNat
  | '-' :: rest => (readDigits 0 false rest).map fun n => -Int.ofNat n
  | text => (readDigits 0 false text).map Int.ofNat

def readInteger (text : String) : Except IntegerError Int :=
  match readSigned (Text.trim text.toList) with
  | none => .error ⟨text⟩
  | some n => .ok n

end JavaLint.Numeral
