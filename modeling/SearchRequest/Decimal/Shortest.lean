import SearchRequest.Decimal.Binary
/-
Doubles as text: the fewest decimal digits that read back as the same number, and of these the
digits nearest to it, a tie going to the even last digit. Numbers from `0.0001` up to below
`10 ^ 16` are written positionally with at least one decimal place, all others with an exponent
of at least two digits.
-/
namespace SearchRequest.Decimal

/-- A positive decimal number: `0.d₁d₂… * 10 ^ point`. -/
structure Digits where
  digits : List Nat
  point : Int

/-- The interval of reals that round to the double `m * 2 ^ q`, over one denominator: the number
itself is `value / den`, the interval reaches from `low / den` to `high / den`, and `closed` tells
whether its ends round to the double too. -/
structure Rounding where
  value : Nat
  low : Nat
  high : Nat
  den : Nat
  closed : Bool

/-- The rounding interval of `m * 2 ^ q`. The gap below a power of two is half as wide as the gap
above it. -/
def Rounding.of (m : Nat) (q : Int) : Rounding :=
  let unit := Nat.pow 2 q.toNat
  let den := 4 * Nat.pow 2 (-q).toNat
  let below := if m = Nat.pow 2 52 && q > -1074 then 1 else 2
  { value := 4 * m * unit
    low := (4 * m - below) * unit
    high := (4 * m + 2) * unit
    den
    closed := m % 2 = 0 }

/-- Whether the decimal `c / den'` lies in the interval. -/
def Rounding.contains (r : Rounding) (c den' : Nat) : Bool :=
  let lowSide := compare (r.low * den') (c * r.den)
  let highSide := compare (c * r.den) (r.high * den')
  (lowSide == .lt || (r.closed && lowSide == .eq)) &&
    (highSide == .lt || (r.closed && highSide == .eq))

/-- The number of digits before the decimal point of `num / den`, zero or negative for numbers
below one: the least `k` with `num / den < 10 ^ k`. -/
def magnitude (num den : Nat) : Int :=
  if den ≤ num then ((Nat.toDigits 10 (num / den)).length : Int)
  else
    let zeros := (Nat.toDigits 10 (den / num)).length
    if num * Nat.pow 10 (zeros - 1) ≥ den then 2 - zeros else 1 - zeros

/-- The grid point with `n` digits that reads back as the double and is nearest to it. The number
`k` is the magnitude of the double, and a grid step is `10 ^ (k - n)`. -/
def onGrid (r : Rounding) (k : Int) (n : Nat) : Option Nat :=
  let step := k - n
  -- The grid point `c` is `c * up / down`.
  let up := Nat.pow 10 step.toNat
  let down := Nat.pow 10 (-step).toNat
  let c := r.value * down / (r.den * up)
  let lower := r.contains (c * up) down
  let upper := r.contains ((c + 1) * up) down
  if lower && upper then
    let left := r.value * down - c * up * r.den
    let right := (c + 1) * up * r.den - r.value * down
    if left < right || (left == right && c % 2 == 0) then some c else some (c + 1)
  else if lower then some c
  else if upper then some (c + 1)
  else none

/-- The fewest digits for a positive double, tried with `n`, `n + 1`, … digits. -/
def shortestFrom (r : Rounding) (k : Int) : (tries n : Nat) → Digits
  | 0, _ => ⟨[], k⟩
  | tries + 1, n =>
    match onGrid r k n with
    | some c =>
      let ds := (Nat.toDigits 10 c).map fun d => d.toNat - 48
      -- A carry beyond `n` digits moves the point by one.
      let point := k + ((ds.length : Int) - n)
      ⟨(ds.reverse.dropWhile (· == 0)).reverse, point⟩
    | none => shortestFrom r k tries (n + 1)

/-- The shortest digits of the positive double `m * 2 ^ q`; seventeen always suffice. -/
def shortest (m : Nat) (q : Int) : Digits :=
  let r := Rounding.of m q
  shortestFrom r (magnitude r.value r.den) 17 1

/-- Where the digits of a number are written positionally, and how many digits an exponent has at
least. -/
structure Layout where
  leastPoint : Int
  mostPoint : Int
  exponentDigits : Nat

/-- Numbers are positional from `0.0001` up to below `10 ^ 16`; exponents have two digits. -/
def layout : Layout := ⟨-3, 16, 2⟩

/-- Digits with leading zeros up to a width. -/
def padded (width n : Nat) : List Char :=
  let ds := Nat.toDigits 10 n
  List.replicate (width - ds.length) '0' ++ ds

/-- The characters of decimal digits. -/
def digitChars (ds : List Nat) : List Char :=
  ds.map fun d => Char.ofNat (48 + d)

/-- Digits written out under a layout. -/
def Digits.write (l : Layout) (d : Digits) : List Char :=
  let cs := digitChars d.digits
  if l.leastPoint ≤ d.point && d.point ≤ l.mostPoint then
    if d.point ≤ 0 then '0' :: '.' :: List.replicate (-d.point).toNat '0' ++ cs
    else
      let n := d.point.toNat
      if cs.length ≤ n then cs ++ List.replicate (n - cs.length) '0' ++ ['.', '0']
      else cs.take n ++ '.' :: cs.drop n
  else
    let e := d.point - 1
    let mantissa := match cs with
      | c :: r :: rest => c :: '.' :: r :: rest
      | cs => cs
    mantissa ++ 'e' :: (if e < 0 then '-' else '+') :: padded l.exponentDigits e.natAbs

/-- The text of a double from its parts. -/
def Parts.text : Parts → String
  | .nan => "nan"
  | .infinite negative => if negative then "-inf" else "inf"
  | .finite negative m q =>
    let cs := if m = 0 then ['0', '.', '0'] else (shortest m q).write layout
    String.ofList (if negative then '-' :: cs else cs)

/-- The text of a double. -/
def text (x : Float) : String :=
  (parts x).text

end SearchRequest.Decimal
