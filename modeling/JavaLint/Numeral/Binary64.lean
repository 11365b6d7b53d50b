/-!
Binary floating-point numbers with a 53-bit significand. A finite number is a sign, a significand
`m` and an exponent `q`, and stands for `m * 2 ^ q`. Numbers are read from decimal by rounding the
exact quotient, ties to the even significand.
-/
namespace JavaLint.Numeral

inductive Binary64 where
  | finite (negative : Bool) (significand : Nat) (exponent : Int)
  | infinite (negative : Bool)
  | nan
  deriving DecidableEq, Repr

namespace Binary64

def twoTo (n : Nat) : Nat := Nat.pow 2 n

def tenTo (n : Nat) : Nat := Nat.pow 10 n

def leastExponent : Int := -1074

def greatestExponent : Int := 971

def zero (negative : Bool) : Binary64 := .finite negative 0 leastExponent

/-- The quotient of two naturals rounded to the nearest, ties to even. -/
def roundQuotient (num den : Nat) : Nat :=
  let low := num / den
  let twice := 2 * (num % den)
  if twice > den || (twice == den && low % 2 == 1) then low + 1 else low

def significandAt (num den : Nat) (q : Int) : Nat :=
  if q ≥ 0 then roundQuotient num (den * twoTo q.toNat)
  else roundQuotient (num * twoTo (-q).toNat) den

/-- The exponent at which `num / den` has 53 significant bits, or the least one. -/
def exponentOf (num den : Nat) : Int :=
  let guess : Int := (num.log2 : Int) - den.log2 - 52
  let fits : Bool :=
    if guess ≥ 0 then den * twoTo guess.toNat * twoTo 52 ≤ num
    else den * twoTo 52 ≤ num * twoTo (-guess).toNat
  max (if fits then guess else guess - 1) leastExponent

def ofQuotient (negative : Bool) (num den : Nat) : Binary64 :=
  let q := exponentOf num den
  let m := significandAt num den q
  let (m, q) := if m == twoTo 53 then (twoTo 52, q + 1) else (m, q)
  if q > greatestExponent then .infinite negative
  else if m == 0 then zero negative
  else .finite negative m q

/-- The number nearest to `digits * 10 ^ power`. Powers far out of range are decided at once. -/
def ofDecimal (negative : Bool) (digits : Nat) (power : Int) : Binary64 :=
  let magnitude : Int := (Nat.toDigits 10 digits).length + power
  if digits == 0 then zero negative
  else if magnitude > 310 then .infinite negative
  else if magnitude < -330 then zero negative
  else if power ≥ 0 then ofQuotient negative (digits * tenTo power.toNat) 1
  else ofQuotient negative digits (tenTo (-power).toNat)

def toInt? : Binary64 → Option Int
  | .finite negative m q =>
    let signed (n : Nat) : Int := if negative then -(n : Int) else n
    if q ≥ 0 then some (signed (m * twoTo q.toNat))
    else if m % twoTo (-q).toNat == 0 then some (signed (m / twoTo (-q).toNat))
    else none
  | _ => none

/-- Whether the number is below an integer; not so for a number that is no quantity. -/
def ltInt (x : Binary64) (n : Int) : Bool :=
  match x with
  | .nan => false
  | .infinite negative => negative
  | .finite negative m q =>
    let signed : Int := if negative then -(m : Int) else m
    if q ≥ 0 then signed * twoTo q.toNat < n else signed < n * twoTo (-q).toNat

end Binary64

end JavaLint.Numeral
