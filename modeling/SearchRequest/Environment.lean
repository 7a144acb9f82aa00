import SearchRequest.Mapping.Keyword
/-
What a compile depends on beside the value that is compiled.
-/
namespace SearchRequest

/-- The flags and the resolver of a compile. -/
structure Environment where
  resolver : Option KeywordResolver := none
  /-- Use fields as they are for exact matches. -/
  bypass : Bool := false
  /-- Keep sort entries on the document id. -/
  allowIdSort : Bool := false
  /-- How many inner hits are returned when nothing else is asked for. -/
  innerHitsSize : Int := 100

namespace Environment

/-- The field that stands for the exact form of a field, if the resolver knows one. -/
def resolve (env : Environment) (field : String) : Option String :=
  env.resolver.bind fun r => r.resolve field

/-- The field that an operator compares exactly. When none is known, the membership operators use
the field as it is and `exact` fails. -/
def keywordField (env : Environment) (op : Operator) (field : String) : Except Error String :=
  if env.bypass then .ok field
  else match (env.resolve field).filter (!·.isEmpty) with
    | some keyword => .ok keyword
    | none => if op = .exact then .error (.missingKeywordField field op) else .ok field

end Environment

end SearchRequest
