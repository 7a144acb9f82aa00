import SearchRequest.Value.Display
/-
Error reports: a kind, a message and named details. The kinds form a hierarchy, so that a caller
can catch a whole family.
-/
namespace SearchRequest

/-- The kinds of error report. -/
inductive ErrorKind
  | general
  | queryCompile
  | unsupportedOperator
  | malformedCondition
  | parameter
  | unrecognizedOption
  | invalidOption
  | missingKeywordField
  | configuration
  | invalidConfig
  deriving DecidableEq, Repr

namespace ErrorKind

/-- Every kind. -/
def all : List ErrorKind :=
  [general, queryCompile, unsupportedOperator, malformedCondition, parameter, unrecognizedOption,
    invalidOption, missingKeywordField, configuration, invalidConfig]

/-- The name of a kind. -/
def name : ErrorKind → String
  | general => "ElasticWhereError"
  | queryCompile => "QueryCompileError"
  | unsupportedOperator => "UnsupportedOperatorError"
  | malformedCondition => "MalformedConditionError"
  | parameter => "ParameterError"
  | unrecognizedOption => "UnrecognizedOptionError"
  | invalidOption => "InvalidOptionError"
  | missingKeywordField => "MissingKeywordFieldError"
  | configuration => "ConfigurationError"
  | invalidConfig => "InvalidConfigError"

/-- The kind of a name. -/
def ofName? (n : String) : Option ErrorKind :=
  all.find? (·.name == n)

/-- A kind followed by the wider kinds it belongs to. -/
def lineage : ErrorKind → List ErrorKind
  | general => [general]
  | queryCompile => [queryCompile, general]
  | unsupportedOperator => [unsupportedOperator, queryCompile, general]
  | malformedCondition => [malformedCondition, queryCompile, general]
  | parameter => [parameter, general]
  | unrecognizedOption => [unrecognizedOption, parameter, general]
  | invalidOption => [invalidOption, parameter, general]
  | missingKeywordField => [missingKeywordField, parameter, general]
  | configuration => [configuration, general]
  | invalidConfig => [invalidConfig, configuration, general]

end ErrorKind

/-- An error report. -/
structure Report where
  kind : ErrorKind
  message : String
  details : Entries

namespace Report

/-- The details in words, each value as messages show it. -/
def detailsText (r : Report) : String :=
  String.intercalate ", " (r.details.map fun (k, v) => k ++ "=" ++ v.display)

/-- The report in words: the message, and the details in parentheses; either may be absent. -/
def text (r : Report) : String :=
  if r.details.isEmpty then r.message
  else if r.message.isEmpty then r.detailsText
  else r.message ++ " (" ++ r.detailsText ++ ")"

/-- The report as a value is shown. -/
def display (r : Report) : String :=
  r.kind.name ++ "(message=" ++ (Value.str r.message).display ++ ", details=" ++
    (Value.object r.details).display ++ ")"

end Report

end SearchRequest
