import SearchRequest.Operator
/-
What can be wrong with a value that is read into a typed form, and where it stands.
-/
namespace SearchRequest

/-- Why a value is not accepted. -/
inductive Reason
  | missing
  | unknownKey
  | notString
  | unreadString
  | notInteger
  | unreadInteger
  | fractional
  | tooLarge
  | notFinite
  | negative
  | notNumber
  | unreadNumber
  | notBoolean
  | unreadBoolean
  | notList
  | notMapping
  | notTuple
  | tooManyItems (most actual : Nat)
  /-- A record of the given type is needed. -/
  | notRecord (typeName : String)
  /-- One of the given words is needed. -/
  | notAmong (words : List String)
  /-- The word is no clause of a boolean query. -/
  | noClause
  /-- The verb has its own kind of condition. -/
  | scopeVerb (word : String)
  deriving DecidableEq, Repr

/-- Words in single quotes. -/
def singleQuoted (w : String) : String :=
  "'" ++ w ++ "'"

/-- Texts separated by commas. -/
def commaSeparated (ss : List String) : String :=
  String.intercalate ", " ss

/-- Words as alternatives: the last two are joined by `or`. -/
def alternatives : List String → String
  | [] => ""
  | [w] => w
  | ws => commaSeparated ws.dropLast ++ " or " ++ ws.getLastD ""

namespace Reason

/-- The reason in words. -/
def message : Reason → String
  | missing => "Field required"
  | unknownKey => "Extra inputs are not permitted"
  | notString => "Input should be a valid string"
  | unreadString => "Input should be a valid string, unable to parse raw data as a unicode string"
  | notInteger => "Input should be a valid integer"
  | unreadInteger => "Input should be a valid integer, unable to parse string as an integer"
  | fractional => "Input should be a valid integer, got a number with a fractional part"
  | tooLarge => "Unable to parse input string as an integer, exceeded maximum size"
  | notFinite => "Input should be a finite number"
  | negative => "Input should be greater than or equal to 0"
  | notNumber => "Input should be a valid number"
  | unreadNumber => "Input should be a valid number, unable to parse string as a number"
  | notBoolean => "Input should be a valid boolean"
  | unreadBoolean => "Input should be a valid boolean, unable to interpret input"
  | notList => "Input should be a valid list"
  | notMapping => "Input should be a valid dictionary"
  | notTuple => "Input should be a valid tuple"
  | tooManyItems most actual =>
    "Tuple should have at most " ++ toString most ++ " items after validation, not " ++
      toString actual
  | notRecord typeName => "Input should be a valid dictionary or instance of " ++ typeName
  | notAmong words => "Input should be " ++ alternatives (words.map singleQuoted)
  | noClause =>
    "Value error, connective must be one of [" ++
      commaSeparated (Clause.all.map fun c => singleQuoted c.word) ++ "]"
  | scopeVerb word => "Value error, operator " ++ singleQuoted word ++ " has its own condition type"

end Reason

/-- A reason and the path of keys, positions and alternatives to the value it is about. -/
structure Failure where
  path : List String
  reason : Reason
  deriving DecidableEq, Repr

namespace Failure

/-- The path with dots between its parts. -/
def location (f : Failure) : String :=
  String.intercalate "." f.path

/-- The failure in words. -/
def text (f : Failure) : String :=
  f.location ++ ": " ++ f.reason.message

/-- The failure seen from one level further out. -/
def under (part : String) (f : Failure) : Failure :=
  { f with path := part :: f.path }

/-- Failures in words. -/
def textOfAll (fs : List Failure) : String :=
  String.intercalate "; " (fs.map text)

end Failure

end SearchRequest
