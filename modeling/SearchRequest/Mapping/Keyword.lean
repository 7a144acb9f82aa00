import SearchRequest.Mapping.FieldTypes
/-
Which field an exact match uses: the field itself when it is a keyword, or else its keyword form,
a field under it with an agreed last name.
-/
namespace SearchRequest

/-- What answers which field stands for the exact form of a field. -/
inductive KeywordResolver
  /-- By the types of the fields and the last name of keyword forms. -/
  | byType (types : FieldTypes) (suffix : String)
  /-- By a given table. -/
  | byTable (table : List (String × String))

namespace KeywordResolver

/-- Whether a path has the keyword type. -/
def isKeyword (types : FieldTypes) (path : String) : Bool :=
  match Entries.find? path types with
  | some (.str t) => t == "keyword"
  | _ => false

/-- The paths of the keyword type in alphabetical order. -/
def keywordFields (types : FieldTypes) : List String :=
  ((Entries.keys types).filter (isKeyword types)).mergeSort (· ≤ ·)

/-- The field that stands for the exact form of a field, if there is one. -/
def resolve : KeywordResolver → String → Option String
  | byType types suffix, field =>
    if isKeyword types field then some field
    else if isKeyword types (field ++ "." ++ suffix) then some (field ++ "." ++ suffix)
    else none
  | byTable table, field => Entries.find? field table

/-- A resolver from an index mapping document. -/
def ofDocument (document index : Value) (suffix : String) : Except Error KeywordResolver :=
  (Mapping.fieldTypes document index).map fun types => byType types suffix

/-- The word that names the type of a resolver. -/
def typeName : Option KeywordResolver → String
  | none => "NoneType"
  | some (byType ..) => "MappingKeywordResolver"
  | some (byTable _) => "TableResolver"

end KeywordResolver

end SearchRequest
