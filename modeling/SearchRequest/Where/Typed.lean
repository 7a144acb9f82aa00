import SearchRequest.Options.Validate
/-
Conditions, trees and options built from their fields by the name of their type.
-/
namespace SearchRequest

open Validated (valid invalid fail required optional)

namespace Typed

/-- A value with none of several typed forms: a failure for each of them. -/
def noneOf {α : Type} (first : String) (more : List String) : Validated α :=
  let failure (name : String) : Failure := ⟨[name], .notRecord name⟩
  invalid (failure first) (more.map failure)

/-- A typed condition. -/
def condition : Value → Validated Condition
  | .condition c => valid c
  | _ =>
    noneOf "MatchCondition"
      ["FieldCondition", "GroupCondition", "NestedCondition", "InnerNestedCondition",
        "MultiMatchCondition"]

/-- A list of typed conditions. -/
def conditions (v : Value) : Validated (List Condition) :=
  (Validate.list v).andThen (Validated.each condition)

/-- A list of branches. -/
def branches (v : Value) : Validated (List (List Condition)) :=
  (Validate.list v).andThen (Validated.each conditions)

/-- A typed tree. -/
def tree : Value → Validated Where
  | .tree t => valid t
  | _ => noneOf "LogicalAnd" ["LogicalOr", "SingleCondition"]

/-- A typed tree or null. -/
def tree? : Value → Validated (Option Where) :=
  Validate.nullable tree

/-- The operator of a comparison: a verb that has no kind of condition of its own. -/
def operator (v : Value) : Validated Operator :=
  match Validate.string v with
  | .invalid .. => fail (.notAmong (Verb.all.map Verb.word))
  | .valid w =>
    match Verb.ofWord? w with
    | some (.compare op) => valid op
    | some verb => fail (.scopeVerb verb.word)
    | none => fail (.notAmong (Verb.all.map Verb.word))

/-- The clause of a group. -/
def clause (v : Value) : Validated Clause :=
  (Validate.string v).andThen fun w =>
    match Clause.ofWord? w with
    | some c => valid c
    | none => fail .noClause

/-- The options of a nested condition, typed or as a mapping. -/
def options : Value → Validated (Options Value)
  | .options o => valid o
  | .object es => Options.ofEntries false es
  | _ => fail (.notRecord "QueryOptions")

/-- The condition with the given type name and fields. -/
def namedCondition? (typeName : String) (es : Entries) : Option (Validated Condition) :=
  match typeName with
  | "MatchCondition" =>
    some (Condition.is <$> required es "field" Validate.string <*>
      required es "value" Validate.any)
  | "FieldCondition" =>
    some (Condition.compare <$> required es "field" Validate.string <*>
      required es "operator" operator <*> optional es "operand" .null Validate.any)
  | "GroupCondition" =>
    some (Condition.group <$> required es "connective" clause <*> optional es "wheres" none tree?)
  | "NestedCondition" =>
    some (Condition.nested <$> required es "path" Validate.string <*>
      optional es "wheres" none tree? <*> required es "score_mode" Validate.string <*>
      optional es "negated" false Validate.boolean)
  | "InnerNestedCondition" =>
    some (Condition.innerNested <$> required es "path" Validate.string <*>
      optional es "wheres" none tree? <*> optional es "options" {} options <*>
      required es "score_mode" Validate.string <*>
      optional es "ignore_unmapped" false Validate.boolean)
  | "MultiMatchCondition" =>
    some (Condition.multiMatch <$> required es "query" Validate.any <*>
      required es "type" Validate.string <*> required es "fields" Validate.strings <*>
      optional es "options" [] Validate.mapping)
  | _ => none

/-- The tree with the given type name and fields. -/
def namedTree? (typeName : String) (es : Entries) : Option (Validated Where) :=
  match typeName with
  | "LogicalAnd" => some (Where.all <$> optional es "conditions" [] conditions)
  | "LogicalOr" => some (Where.any <$> optional es "branches" [] branches)
  | "SingleCondition" => some (Where.only <$> required es "condition" condition)
  | _ => none

/-- The typed value with the given type name and fields. -/
def value? (typeName : String) (es : Entries) : Option (Validated Value) :=
  match typeName with
  | "QueryOptions" => some (Value.options <$> Options.ofEntries false es)
  | "WriteOptions" => some (Value.options <$> Options.ofEntries true es)
  | typeName =>
    match namedCondition? typeName es with
    | some c => some (Value.condition <$> c)
    | none => (namedTree? typeName es).map fun t => Value.tree <$> t

end Typed

end SearchRequest
