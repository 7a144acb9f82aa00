/-
Binary floating-point numbers as exact fractions. A finite positive double is `m * 2 ^ q` with
`m < 2 ^ 53`, and its bits are `(q + 1074) * 2 ^ 52 + m`, for normal and subnormal numbers alike.
-/
namespace SearchRequest.Decimal

/-- The bits of positive infinity. -/
def infinityBits : Nat := 0x7ff0000000000000

/-- The bit that holds the sign. -/
def signBit : Nat := 0x8000000000000000

/-- The double nearest to `num / den`, a tie going to the even neighbour, by its bits. Both
numbers are positive; what is too large gives infinity. -/
def nearestBits (num den : Nat) : Nat :=
  let scaled (q : Int) : Nat × Nat := (num * Nat.pow 2 (-q).toNat, den * Nat.pow 2 q.toNat)
  let guess : Int := max ((num.log2 : Int) - den.log2 - 52) (-1074)
  let (n, d) := scaled guess
  let q : Int := if n / d < Nat.pow 2 52 && -1074 < guess then guess - 1 else guess
  let (n, d) := scaled q
  let m := n / d
  let r := n % d
  let m := if 2 * r > d || (2 * r == d && m % 2 == 1) then m + 1 else m
  min ((q + 1074).toNat * Nat.pow 2 52 + m) infinityBits

/-- The double nearest to `num / den` with a sign; `num` may be zero. -/
def nearest (negative : Bool) (num den : Nat) : Float :=
  let magnitude := if num = 0 then 0 else nearestBits num den
  Float.ofBits (UInt64.ofNat (if negative then signBit + magnitude else magnitude))

/-- A double taken apart. -/
inductive Parts
  | nan
  | infinite (negative : Bool)
  /-- `m * 2 ^ q`. -/
  | finite (negative : Bool) (m : Nat) (q : Int)
  deriving DecidableEq, Repr

/-- The parts of the double with the given bits. -/
def Parts.ofBits (bits : Nat) : Parts :=
  let negative : Bool := signBit ≤ bits
  let bits := bits % signBit
  let e : Nat := bits / Nat.pow 2 52
  let f : Nat := bits % Nat.pow 2 52
  if e = 0x7ff then (if f = 0 then .infinite negative else .nan)
  else if e = 0 then .finite negative f (-1074)
  else .finite negative (Nat.pow 2 52 + f) ((e : Int) - 1075)

/-- The parts of a double. -/
def parts (x : Float) : Parts :=
  Parts.ofBits x.toBits.toNat

/-- The whole number that a finite double equals, if it equals one. -/
def whole? (x : Float) : Option Int :=
  match parts x with
  | .finite negative m q =>
    let num := m * Nat.pow 2 q.toNat
    let den := Nat.pow 2 (-q).toNat
    if num % den = 0 then
      let n : Int := (num / den : Nat)
      some (if negative then -n else n)
    else none
  | _ => none

/-- The double nearest to a whole number, if it is not too large for one. -/
def ofInt? (i : Int) : Option Float :=
  if i.natAbs ≠ 0 && nearestBits i.natAbs 1 = infinityBits then none
  else some (nearest (i < 0) i.natAbs 1)

end SearchRequest.Decimal
