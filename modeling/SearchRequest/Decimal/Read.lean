import SearchRequest.Decimal.Binary
import SearchRequest.Text.Digit
import SearchRequest.Text.Blank
/-
Numerals read as numbers. A numeral is a sign that may be absent, digits with at most one decimal
point, and an exponent that may be absent. The words `inf`, `infinity` and `nan` are numerals too,
in any case. In a grouped numeral single underscores may stand between digits.
-/
namespace SearchRequest.Decimal

open Text (asciiDigit? ofDigits)

/-- The digits at the front, and the rest. -/
def spanDigits : List Char → List Nat × List Char
  | [] => ([], [])
  | c :: cs =>
    match asciiDigit? c with
    | some d =>
      let (ds, rest) := spanDigits cs
      (d :: ds, rest)
    | none => ([], c :: cs)

/-- The sign at the front, whether it is negative, and the rest. -/
def spanSign : List Char → Bool × List Char
  | '-' :: cs => (true, cs)
  | '+' :: cs => (false, cs)
  | cs => (false, cs)

/-- The exponent of a numeral, when the characters are exactly one or none at all. -/
def readExponent? : List Char → Option Int
  | [] => some 0
  | c :: cs =>
    if c = 'e' || c = 'E' then
      let (negative, cs) := spanSign cs
      match spanDigits cs with
      | (d :: ds, []) =>
        let n : Int := ofDigits (d :: ds)
        some (if negative then -n else n)
      | _ => none
    else none

/-- The double nearest to `m * 10 ^ e`. Numbers far outside the range of doubles are recognised by
their magnitude, so that no power of ten is larger than a double needs. -/
def scaled (negative : Bool) (m : Nat) (e : Int) : Float :=
  let size : Int := (Nat.toDigits 10 m).length + e
  if m = 0 || size < -330 then nearest negative 0 1
  else if size > 320 then nearest negative (Nat.pow 2 1024) 1
  else nearest negative (m * Nat.pow 10 e.toNat) (Nat.pow 10 (-e).toNat)

/-- An unsigned numeral, read as a double with the given sign. -/
def readUnsigned? (negative : Bool) (cs : List Char) : Option Float :=
  let word := String.ofList (cs.map Char.toLower)
  if word = "inf" || word = "infinity" then some (nearest negative (Nat.pow 2 1024) 1)
  else if word = "nan" then some (Float.ofBits 0x7ff8000000000000)
  else
    let (whole, rest) := spanDigits cs
    let (fraction, rest) := match rest with
      | '.' :: rest => spanDigits rest
      | rest => ([], rest)
    if whole.isEmpty && fraction.isEmpty then none
    else (readExponent? rest).map fun e =>
      scaled negative (ofDigits (whole ++ fraction)) (e - fraction.length)

/-- A numeral read as a double. -/
def readFloat? (cs : List Char) : Option Float :=
  let (negative, cs) := spanSign cs
  readUnsigned? negative cs

/-- A numeral without the underscores that stand between two digits; none if one of them stands
anywhere else. -/
def ungroup? : List Char → Option (List Char)
  | [] => some []
  | c :: '_' :: d :: cs =>
    if c.isDigit && d.isDigit then (ungroup? (d :: cs)).map (c :: ·) else none
  | c :: cs => if c = '_' then none else (ungroup? cs).map (c :: ·)

/-- A grouped numeral read as a double, with white space around it allowed. -/
def readGrouped? (cs : List Char) : Option Float :=
  (ungroup? (Text.trim cs)).bind readFloat?

/-- Digits without a zero in front of others, read as a natural number. -/
def readNat? (cs : List Char) : Option Nat :=
  match spanDigits cs with
  | ([d], []) => some d
  | (d :: ds, []) => if d = 0 then none else some (ofDigits (d :: ds))
  | _ => none

/-- A whole numeral: a minus that may be absent, and digits. -/
def readInt? : List Char → Option Int
  | '-' :: cs => (readNat? cs).map fun n => -(n : Int)
  | cs => (readNat? cs).map Int.ofNat

/-- The digits and the rest are all that there is. -/
theorem length_spanDigits (cs : List Char) :
    (spanDigits cs).1.length + (spanDigits cs).2.length = cs.length := by
  induction cs with
  | nil => rfl
  | cons c cs ih =>
    cases h : asciiDigit? c with
    | none => simp [spanDigits, h]
    | some d => simp only [spanDigits, h, List.length_cons]; omega

/-- A numeral that has no underscores is its own ungrouped form. -/
theorem ungroup?_of_notMem {cs : List Char} (h : '_' ∉ cs) : ungroup? cs = some cs := by
  induction cs with
  | nil => rfl
  | cons c cs ih =>
    simp only [List.mem_cons, not_or] at h
    rw [ungroup?, ih h.2]
    · simp [Ne.symm h.1]
    · rintro d ds rfl
      exact h.2 (List.mem_cons_self ..)

/-- No underscore is left in an ungrouped numeral. -/
theorem notMem_of_ungroup? {cs ds : List Char} (h : ungroup? cs = some ds) : '_' ∉ ds := by
  fun_induction ungroup? cs generalizing ds with
  | case1 => simp_all
  | case2 c d cs hd ih =>
    obtain ⟨es, he, rfl⟩ := Option.map_eq_some_iff.1 h
    have hc : c ≠ '_' := by
      rintro rfl
      simp at hd
    simp [Ne.symm hc, ih he]
  | case3 => simp at h
  | case4 => simp at h
  | case5 c cs _ hc ih =>
    obtain ⟨es, he, rfl⟩ := Option.map_eq_some_iff.1 h
    simp [Ne.symm hc, ih he]

end SearchRequest.Decimal
