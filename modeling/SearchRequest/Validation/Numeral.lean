import SearchRequest.Decimal.Read
import SearchRequest.Text.Occurrence
import SearchRequest.Validation.Validated
/-
Texts read as numbers. Besides plain numerals these are accepted: white space around a numeral,
underscores within it and, in a whole number, a plus sign, zeros in front and a fraction of zeros.
-/
namespace SearchRequest.Numeral

open Validated (valid fail)

/-- The characters without underscores; none when one of them stands at an end or two of them side
by side. -/
def withoutUnderscores? (cs : List Char) : Option (List Char) :=
  if cs.head? = some '_' || cs.getLast? = some '_' || Text.occursIn ['_', '_'] cs then none
  else some (cs.filter (· ≠ '_'))

/-- A number: a numeral with white space around it, or else one with underscores anywhere within
it. -/
def number (s : String) : Validated Float :=
  match Decimal.readFloat? (Text.trim s.toList) with
  | some x => valid x
  | none =>
    match (withoutUnderscores? s.toList).bind Decimal.readFloat? with
    | some x => valid x
    | none => fail .unreadNumber

/-- The most characters of a whole numeral, a minus included. -/
def mostLength : Nat := 4300

/-- The number of characters of the whole numeral at the front. A zero there stands alone and is
not counted. -/
def frontLength : List Char → Nat
  | '-' :: cs => 1 + digits cs
  | cs => digits cs
where
  /-- The number of digits at the front, unless the first one is zero. -/
  digits (cs : List Char) : Nat :=
    if cs.head? = some '0' then 0 else (cs.takeWhile Char.isDigit).length

/-- The numeral after a zero or an underscore that comes before it, with the zeros and underscores
in front of it passed over. The last of them stays when the numeral has no other whole part. A
minus may follow them. -/
def afterZero? (last : Char) : List Char → Option (List Char)
  | [] => some [last]
  | c :: cs =>
    if c = '0' || c = '_' then afterZero? c cs
    else if c = '.' then some (last :: c :: cs)
    else if c = '-' || c.isDigit then some (c :: cs)
    else none

/-- A numeral without the zeros in front of it; none when it does not start with a digit. -/
def withoutZeros? : List Char → Option (List Char)
  | [] => none
  | c :: cs =>
    if c = '0' then afterZero? c cs
    else if c.isDigit then some (c :: cs)
    else none

/-- A numeral without its fraction, when that is made of zeros. -/
def withoutZeroFraction (cs : List Char) : List Char :=
  match cs.dropWhile (· ≠ '.') with
  | '.' :: '0' :: zeros => if zeros.all (· = '0') then cs.takeWhile (· ≠ '.') else cs
  | _ => cs

/-- A numeral with everything taken away that a whole number may have and a plain numeral not. -/
def plain? (cs : List Char) : Option (List Char) :=
  let (negative, cs) := Decimal.spanSign (Text.trim cs)
  (withoutZeros? cs).map fun cs =>
    let cs := withoutZeroFraction cs
    let cs := (withoutUnderscores? cs).getD cs
    if negative then '-' :: cs else cs

/-- A whole number: a plain numeral, or one that becomes plain. What starts with too long a numeral
is too large, whatever follows. -/
def integer (s : String) : Validated Int :=
  if mostLength < frontLength s.toList then fail .tooLarge
  else
    match Decimal.readInt? s.toList with
    | some i => valid i
    | none =>
      match plain? s.toList with
      | none => fail .unreadInteger
      | some cs =>
        if mostLength < cs.length then fail .unreadInteger
        else
          match Decimal.readInt? cs with
          | some i => valid i
          | none => fail .unreadInteger

/-- No underscore is left where they are taken away. -/
theorem notMem_of_withoutUnderscores? {cs ds : List Char} (h : withoutUnderscores? cs = some ds) :
    '_' ∉ ds := by
  unfold withoutUnderscores? at h
  split at h
  · simp at h
  · simp only [Option.some.injEq] at h
    simp [← h]

/-- A fraction of zeros is taken away as a whole. -/
theorem withoutZeroFraction_append {cs zeros : List Char} (h : '.' ∉ cs)
    (hz : ∀ c ∈ zeros, c = '0') : withoutZeroFraction (cs ++ '.' :: '0' :: zeros) = cs := by
  have hp : ∀ c ∈ cs, decide (c ≠ '.') = true := by
    intro c hc
    simp only [decide_eq_true_eq]
    rintro rfl
    exact h hc
  have hd : (cs ++ '.' :: '0' :: zeros).dropWhile (· ≠ '.') = '.' :: '0' :: zeros := by
    rw [List.dropWhile_append_of_pos hp]
    rfl
  have ht : (cs ++ '.' :: '0' :: zeros).takeWhile (· ≠ '.') = cs := by
    rw [List.takeWhile_append_of_pos hp]
    simp
  have hz : zeros.all (· = '0') = true := by simpa using hz
  rw [withoutZeroFraction, hd]
  simp only [hz, if_true]
  exact ht

end SearchRequest.Numeral
