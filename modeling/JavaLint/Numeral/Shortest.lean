import JavaLint.Numeral.Binary64
import JavaLint.Numeral.Integer

/-!
The text of a floating-point number: the fewest decimal digits that read back as the number, and of
those the nearest to it. Numbers from 0.0001 up to below ten to the sixteenth are written
positionally, all others with an exponent of at least two digits.
-/
namespace JavaLint.Numeral

namespace Binary64

structure Quantity where
  num : Nat
  den : Nat

def Quantity.ofScaled (m : Nat) (q : Int) : Quantity :=
  if q ≥ 0 then ⟨m * twoTo q.toNat, 1⟩ else ⟨m, twoTo (-q).toNat⟩

def Quantity.below (strict : Bool) (x y : Quantity) : Bool :=
  if strict then x.num * y.den < y.num * x.den else x.num * y.den ≤ y.num * x.den

def Quantity.leadingPower (x : Quantity) : Int :=
  ((Nat.toDigits 10 (x.num * tenTo 400 / x.den)).length : Int) - 401

def Quantity.ofDecimal (digits : Nat) (power : Int) : Quantity :=
  if power ≥ 0 then ⟨digits * tenTo power.toNat, 1⟩ else ⟨digits, tenTo (-power).toNat⟩

/-- The largest multiple of `10 ^ power` not above `x`, as a count of that power. -/
def Quantity.floorAt (x : Quantity) (power : Int) : Nat :=
  if power ≥ 0 then x.num / (x.den * tenTo power.toNat) else x.num * tenTo (-power).toNat / x.den

/-- The reals that round to a number: its two ends, which belong to it iff the significand is even.
All are given in units of a quarter of the last place. -/
def roundsTo (m : Nat) (q : Int) (x : Quantity) : Bool :=
  let strict := m % 2 == 1
  let down := if m == twoTo 52 && q > leastExponent then 4 * m - 1 else 4 * m - 2
  (Quantity.ofScaled down (q - 2)).below strict x &&
    x.below strict (Quantity.ofScaled (4 * m + 2) (q - 2))

/-- `y - x` and `x - z` compared, for `z ≤ x ≤ y`: whether `y` is nearer, and whether they tie. -/
def Quantity.nearerAbove (x : Quantity) (digits : Nat) (power : Int) : Ordering :=
  let middle := Quantity.ofDecimal (10 * digits + 5) (power - 1)
  compare (middle.num * x.den) (x.num * middle.den)

/-- The digits with `10 ^ power` as last place that read back as the number, if there are any. -/
def digitsAt (m : Nat) (q : Int) (power : Int) : Option Nat :=
  let x := Quantity.ofScaled m q
  let low := x.floorAt power
  let reads (digits : Nat) : Bool := digits != 0 && roundsTo m q (Quantity.ofDecimal digits power)
  match reads low, reads (low + 1) with
  | true, true =>
    match x.nearerAbove low power with
    | .lt => some (low + 1)
    | .gt => some low
    | .eq => some (if low % 2 == 0 then low else low + 1)
  | true, false => some low
  | false, true => some (low + 1)
  | false, false => none

/-- Tries one more digit at a time; `tries` places are left. -/
def shortestFrom (m : Nat) (q : Int) (power : Int) : (tries : Nat) → Nat × Int
  | 0 => ((Quantity.ofScaled m q).floorAt power, power)
  | tries + 1 =>
    match digitsAt m q power with
    | some digits => (digits, power)
    | none => shortestFrom m q (power - 1) tries

def shortest (m : Nat) (q : Int) : Nat × Int :=
  shortestFrom m q (Quantity.ofScaled m q).leadingPower 17

def significantDigits (digits : Nat) : List Char :=
  ((Nat.toDigits 10 digits).reverse.dropWhile (· == '0')).reverse

def exponentText (e : Int) : List Char :=
  let digits := Nat.toDigits 10 e.natAbs
  (if e < 0 then ['e', '-'] else ['e', '+']) ++
    (if digits.length < 2 then '0' :: digits else digits)

/-- Lays out digits whose decimal point stands `point` places after their start. -/
def layOut (digits : List Char) (point : Int) : List Char :=
  if point ≤ -4 || point > 16 then
    match digits with
    | [d] => d :: exponentText (point - 1)
    | d :: more => d :: '.' :: more ++ exponentText (point - 1)
    | [] => []
  else if point ≤ 0 then ['0', '.'] ++ List.replicate (-point).toNat '0' ++ digits
  else if digits.length ≤ point.toNat then
    digits ++ List.replicate (point.toNat - digits.length) '0' ++ ['.', '0']
  else digits.take point.toNat ++ '.' :: digits.drop point.toNat

def positiveText (m : Nat) (q : Int) : List Char :=
  let (digits, power) := shortest m q
  layOut (significantDigits digits) ((Nat.toDigits 10 digits).length + power)

structure Spelling where
  nan : List Char
  infinity : List Char

def text (spelling : Spelling) : Binary64 → List Char
  | .finite negative m q =>
    (if negative then ['-'] else []) ++ (if m == 0 then ['0', '.', '0'] else positiveText m q)
  | .infinite negative => (if negative then ['-'] else []) ++ spelling.infinity
  | .nan => spelling.nan

end Binary64

end JavaLint.Numeral
