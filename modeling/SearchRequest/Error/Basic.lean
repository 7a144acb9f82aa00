import SearchRequest.Entries
import SearchRequest.Error.Misuse
import SearchRequest.Error.Report
import SearchRequest.Validation.Failure
/-
The causes of failure. Each cause holds what it is about; its kind, message and details are given
in one place, `Error.report?`. A misuse has no report.
-/
namespace SearchRequest

/-- Why a request could not be compiled. -/
inductive Error
  /-- A condition is no mapping of one entry. -/
  | notOneCondition (received : Value)
  /-- An operand is a sequence without an operator. -/
  | bareSequence (field : String)
  /-- An operator mapping has not exactly one entry. -/
  | notOneOperator (field : String) (operators : List Value)
  /-- The key of an operator mapping is no verb. -/
  | unsupportedOperator (operator : Value) (field : String)
  /-- A group stands under a word that is no clause. -/
  | notAClause (field : String)
  /-- The operand of a scope is no mapping. -/
  | payloadNotMapping (field operator : String) (received : Value)
  /-- The operand of a scope lacks a part or has a wrong one. -/
  | malformedPayload (field operator : String) (failure : Failure)
  /-- No list of conditions stands under a connective. -/
  | notConditions (connective : String) (received : Value)
  /-- No list of branches stands under `or`. -/
  | notBranches (received : Value)
  /-- A value is no tree. -/
  | notATree (received : Value)
  /-- A value handed in as a tree is none. -/
  | notATreeArgument (received : Value)
  /-- A mapping holds connectives beside other keys. -/
  | mixedTree (keys : List String)
  /-- An operand has not two bounds. -/
  | notTwoBounds (field : String) (op : Operator) (operand : Value)
  /-- An operand is no mapping of search parameters. -/
  | notSearchParameters (field : String) (op : Operator)
  /-- An operand is no sequence of terms. -/
  | notTerms (field : String) (op : Operator)
  /-- The field has no keyword form. -/
  | missingKeywordField (field : String) (op : Operator)
  /-- Options hold an unknown key. -/
  | unknownOption (location : String)
  /-- An option has a wrong value. -/
  | invalidOption (failure : Failure)
  /-- Options are no mapping. -/
  | optionsNotMapping (received : Value)
  /-- A sort payload is neither a direction nor a mapping. -/
  | sortPayload (field : String)
  /-- A sort by distance has no point. -/
  | sortWithoutPin (field : String)
  /-- The options of a text search are no mapping. -/
  | searchOptionsNotMapping (received : Value)
  /-- The boost of a search field is no number. -/
  | boostNotNumber (field boost : Value)
  /-- An aggregation has no columns. -/
  | noColumns (received : Value)
  /-- An index mapping is no mapping. -/
  | indexMappingNotMapping (received : Value)
  /-- An index mapping has no properties. -/
  | noProperties (index : Value) (keys : List Value)
  | misuse (m : Misuse)

namespace Error

/-- The word for the type of a value, as a detail. -/
def typeDetail (v : Value) : String × Value :=
  ("received", .str v.typeName)

/-- A field as a detail. -/
def fieldDetail (field : String) : String × Value :=
  ("field", .str field)

/-- An operator as a detail. -/
def operatorDetail (op : Operator) : String × Value :=
  ("operator", .str op.word)

/-- An option as a detail. -/
def optionDetail (location : String) : String × Value :=
  ("option", .str location)

/-- The report of a cause. -/
def report? : Error → Option Report
  | notOneCondition v =>
    some ⟨.malformedCondition, "A condition must be a single \x7bfield: operand\x7d mapping",
      [("received", match v with
        | .object es => .ofStrings ((Entries.keys es).mergeSort (· ≤ ·))
        | v => v)]⟩
  | bareSequence field =>
    some ⟨.malformedCondition, "Sequence operands need an operator such as 'in'",
      [fieldDetail field]⟩
  | notOneOperator field operators =>
    some ⟨.malformedCondition,
      "An operator condition must be a single \x7boperator: operand\x7d mapping",
      [fieldDetail field, ("operators", .list operators)]⟩
  | unsupportedOperator operator field =>
    some ⟨.unsupportedOperator, "Invalid operator provided for condition",
      [("operator", operator), fieldDetail field]⟩
  | notAClause field =>
    some ⟨.malformedCondition, "Group connective must be a bool clause",
      [fieldDetail field, ("expected", .ofStrings (Clause.all.map Clause.word))]⟩
  | payloadNotMapping field operator v =>
    some ⟨.malformedCondition, "Structured operand must be a mapping",
      [fieldDetail field, ("operator", .str operator), typeDetail v]⟩
  | malformedPayload field operator f =>
    some ⟨.malformedCondition, "Malformed condition payload",
      [fieldDetail field, ("operator", .str operator), ("key", .str f.location),
        ("reason", .str f.reason.message)]⟩
  | notConditions connective v =>
    some ⟨.malformedCondition, "'" ++ connective ++ "' expects a list of conditions",
      [typeDetail v]⟩
  | notBranches v =>
    some ⟨.malformedCondition, "'or' expects a list of branches", [typeDetail v]⟩
  | notATree v =>
    some ⟨.malformedCondition, "where must be a mapping or a where node", [typeDetail v]⟩
  | notATreeArgument v =>
    some ⟨.malformedCondition, "where parameter must be a where node or mapping", [typeDetail v]⟩
  | mixedTree keys =>
    some ⟨.malformedCondition, "Where-tree mixes connectives with conditions",
      [("keys", .ofStrings keys)]⟩
  | notTwoBounds field op operand =>
    some ⟨.malformedCondition, "between requires exactly two values",
      [fieldDetail field, operatorDetail op, ("operand", operand)]⟩
  | notSearchParameters field op =>
    some ⟨.malformedCondition, "search requires a query_string mapping",
      [fieldDetail field, operatorDetail op]⟩
  | notTerms field op =>
    some ⟨.malformedCondition, op.word ++ " requires a list of values",
      [fieldDetail field, operatorDetail op]⟩
  | missingKeywordField field op =>
    some ⟨.missingKeywordField,
      "Field is not a keyword field which is required for the exact operator",
      [fieldDetail field, operatorDetail op]⟩
  | unknownOption location =>
    some ⟨.unrecognizedOption, "Unexpected option", [optionDetail location]⟩
  | invalidOption f =>
    some ⟨.invalidOption, "Invalid option value",
      [optionDetail f.location, ("reason", .str f.reason.message)]⟩
  | optionsNotMapping v => some ⟨.invalidOption, "Options must be a mapping", [typeDetail v]⟩
  | sortPayload field =>
    some ⟨.invalidOption, "Sort payload must be a direction or a mapping",
      [optionDetail "sort", fieldDetail field]⟩
  | sortWithoutPin field =>
    some ⟨.invalidOption, "Geo distance sort requires a pin",
      [optionDetail "sort", fieldDetail field]⟩
  | searchOptionsNotMapping v =>
    some ⟨.invalidOption, "Search options must be a mapping", [typeDetail v]⟩
  | boostNotNumber field boost =>
    some ⟨.invalidOption, "Search field boost must be numeric",
      [optionDetail "fields", ("field", field), ("boost", boost)]⟩
  | noColumns v =>
    some ⟨.invalidOption, "Aggregation needs a list of columns",
      [optionDetail "columns", ("received", v)]⟩
  | indexMappingNotMapping v =>
    some ⟨.invalidConfig, "Index mapping must be a mapping", [typeDetail v]⟩
  | noProperties index keys =>
    some ⟨.invalidConfig, "Index mapping has no properties",
      [("index", index), ("keys", .list keys)]⟩
  | misuse _ => none

/-- The failure of an option list: the first unknown key found anywhere in it, and otherwise the
first failure. -/
def ofOptionFailures (first : Failure) (more : List Failure) : Error :=
  match (first :: more).find? (·.reason == .unknownKey) with
  | some f => unknownOption f.location
  | none => invalidOption first

end Error

end SearchRequest
