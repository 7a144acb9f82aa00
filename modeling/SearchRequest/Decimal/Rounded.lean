import SearchRequest.Decimal.Shortest
/-
Doubles rounded to a number of digits that is asked for: a fixed number of decimal places, a fixed
number of digits with an exponent, or whichever of both is shorter. The exact value is rounded to
the nearest, a tie going to the even last digit.
-/
namespace SearchRequest.Decimal

/-- The quotient of two numbers rounded to the nearest whole number, a tie going to the even
one. -/
def roundDiv (num den : Nat) : Nat :=
  let n := num / den
  let r := num % den
  if 2 * r > den || (2 * r == den && n % 2 == 1) then n + 1 else n

/-- The decimal places after their point. Without any the point stands only when it is kept. -/
def decimals (keepPoint : Bool) (places : List Char) : List Char :=
  if places.isEmpty && !keepPoint then [] else '.' :: places

/-- A number with a fixed number of decimal places. -/
def fixed (keepPoint : Bool) (num den places : Nat) : List Char :=
  let n := roundDiv (num * Nat.pow 10 places) den
  let after := if places = 0 then [] else padded places (n % Nat.pow 10 places)
  Nat.toDigits 10 (n / Nat.pow 10 places) ++ decimals keepPoint after

/-- The digits of a positive number rounded to one digit before the point and `places` after it,
and its exponent. -/
def scientificDigits (num den places : Nat) : Nat × Int :=
  let k := magnitude num den - 1
  let step := k - places
  let n := roundDiv (num * Nat.pow 10 (-step).toNat) (den * Nat.pow 10 step.toNat)
  if n = Nat.pow 10 (places + 1) then (n / 10, k + 1) else (n, k)

/-- An exponent with its sign and at least two digits. -/
def exponentChars (e : Int) : List Char :=
  'e' :: (if e < 0 then '-' else '+') :: padded 2 e.natAbs

/-- Digits with the point after the first one. -/
def pointed (keepPoint : Bool) (n places : Nat) : List Char :=
  let cs := padded (places + 1) n
  cs.take 1 ++ decimals keepPoint (cs.drop 1)

/-- A number with an exponent and a fixed number of decimal places. -/
def scientific (keepPoint : Bool) (num den places : Nat) : List Char :=
  if num = 0 then pointed keepPoint 0 places ++ exponentChars 0
  else
    let (n, e) := scientificDigits num den places
    pointed keepPoint n places ++ exponentChars e

/-- Without zeros at the end of the decimal places, and without a point that ends the number. -/
def withoutTrailingZeros (cs : List Char) : List Char :=
  if cs.contains '.' then
    match cs.reverse.dropWhile (· == '0') with
    | '.' :: rest => rest.reverse
    | rest => rest.reverse
  else cs

/-- A number with at most `digits` digits, positional where the exponent is between -4 and the
number of digits. Zeros at the end are left out unless all are kept. -/
def general (keepAll : Bool) (num den digits : Nat) : List Char :=
  let strip := if keepAll then id else withoutTrailingZeros
  let places := digits - 1
  if num = 0 then strip (fixed keepAll 0 1 places)
  else
    let (n, e) := scientificDigits num den places
    if -4 ≤ e && e < digits then strip (fixed keepAll num den (places - e).toNat)
    else strip (pointed keepAll n places) ++ exponentChars e

end SearchRequest.Decimal
