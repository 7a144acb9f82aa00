import SearchRequest.Validation.Numeral
import SearchRequest.Value.Parts
import SearchRequest.Text.Utf8
/-
Values read as texts, numbers, flags, lists and mappings. Numbers and flags are also read from
their written form, and bytes wherever a text is.
-/
namespace SearchRequest.Validate

open Validated (valid invalid fail)

/-- Any value. -/
def any (v : Value) : Validated Value :=
  valid v

/-- A value that may be null. -/
def nullable {α : Type} (check : Value → Validated α) : Value → Validated (Option α)
  | .null => valid none
  | v => (check v).map some

/-- A text. -/
def string : Value → Validated String
  | .str s => valid s
  | .bytes b =>
    match Text.ofUtf8? b with
    | some s => valid s
    | none => fail .unreadString
  | _ => fail .notString

/-- A whole number from a double without a fraction, of a magnitude below `2 ^ 63`. -/
def integerOfFloat (x : Float) : Validated Int :=
  match Decimal.parts x with
  | .nan | .infinite _ => fail .notFinite
  | .finite .. =>
    match Decimal.whole? x with
    | some i => if Nat.pow 2 63 ≤ i.natAbs then fail .tooLarge else valid i
    | none => fail .fractional

/-- A whole number. -/
def integer : Value → Validated Int
  | .int i => valid i
  | .bool b => valid (if b then 1 else 0)
  | .float x => integerOfFloat x
  | .str s => Numeral.integer s
  | .bytes b =>
    match Text.ofUtf8? b with
    | some s => Numeral.integer s
    | none => fail .unreadInteger
  | _ => fail .notInteger

/-- A whole number that is not negative. -/
def natural (v : Value) : Validated Nat :=
  (integer v).andThen fun i => if i < 0 then fail .negative else valid i.toNat

/-- A number. -/
def number : Value → Validated Float
  | .float x => valid x
  | .bool b => valid (if b then 1 else 0)
  | .int i =>
    match Decimal.ofInt? i with
    | some x => valid x
    | none => fail .notNumber
  | .str s => Numeral.number s
  | .bytes b =>
    match Text.ofUtf8? b with
    | some s => Numeral.number s
    | none => fail .unreadNumber
  | _ => fail .notNumber

/-- The words for a set flag, and those for a cleared one. -/
def flagWords : List (String × Bool) :=
  [("1", true), ("true", true), ("t", true), ("yes", true), ("y", true), ("on", true),
    ("0", false), ("false", false), ("f", false), ("no", false), ("n", false), ("off", false)]

/-- A flag from its written form, in any case. -/
def booleanOfText (s : String) : Validated Bool :=
  match Entries.find? (s.map Char.toLower) flagWords with
  | some b => valid b
  | none => fail .unreadBoolean

/-- A flag from a whole number. -/
def booleanOfInt (i : Int) : Validated Bool :=
  if i = 0 then valid false
  else if i = 1 then valid true
  else if -Int.pow 2 63 ≤ i ∧ i < Int.pow 2 63 then fail .unreadBoolean
  else fail .notBoolean

/-- A flag. -/
def boolean : Value → Validated Bool
  | .bool b => valid b
  | .int i => booleanOfInt i
  | .float x =>
    match integerOfFloat x with
    | .valid i => booleanOfInt i
    | .invalid .. => fail .notBoolean
  | .str s => booleanOfText s
  | .bytes b =>
    match Text.ofUtf8? b with
    | some s => booleanOfText s
    | none => fail .unreadBoolean
  | _ => fail .notBoolean

/-- A list; any sequence is taken as one. -/
def list (v : Value) : Validated (List Value) :=
  match v.sequence? with
  | some xs => valid xs
  | none => fail .notList

/-- A list of texts. -/
def strings (v : Value) : Validated (List String) :=
  (list v).andThen (Validated.each string)

/-- A mapping with text keys. -/
def mapping : Value → Validated Entries
  | .object es => valid es
  | _ => fail .notMapping

end SearchRequest.Validate
