import SearchRequest.Query
import SearchRequest.QueryText
import SearchRequest.Options.Compile
import SearchRequest.Where.Parse
/-
Filter trees compiled to queries. No tree matches everything, `and` becomes the list of a `must`
clause, and `or` the list of a `should` clause with one `must` list for every branch that has a
condition. Inside a nested scope fields are named by their full path.
-/
namespace SearchRequest

namespace Compile

/-- The two bounds of an operand. -/
def bounds (field : String) (op : Operator) (operand : Value) : Except Error Leaf :=
  match operand with
  | .list [low, high] | .tuple [low, high] | .set [low, high] | .frozenset [low, high] =>
    .ok (.range field [("gte", low), ("lte", high)])
  | operand => .error (.notTwoBounds field op operand)

/-- The terms of an operand, looked up in the field that is compared exactly. -/
def terms (env : Environment) (field : String) (op : Operator) (operand : Value) :
    Except Error Leaf :=
  match operand with
  | .list vs | .tuple vs | .set vs | .frozenset vs =>
    (env.keywordField op field).map fun keyword => .terms keyword vs
  | _ => .error (.notTerms field op)

/-- The query of a field, an operator and its operand. -/
def comparison (env : Environment) (field : String) (op : Operator) (operand : Value) :
    Except Error Query :=
  match op with
  | .lt | .lte | .gt | .gte => .ok (.leaf (.range field [(op.word, operand)]))
  | .between => (bounds field op operand).map .leaf
  | .notBetween => (bounds field op operand).map fun l => .bool .mustNot (.leaf l)
  | .search =>
    match operand with
    | .object parameters => .ok (.leaf (.queryString parameters))
    | _ => .error (.notSearchParameters field op)
  | .like =>
    .ok (.leaf (.queryString [("query", .str (QueryText.contains field operand.asText))]))
  | .notLike =>
    .ok (.leaf (.queryString [("query", .str (QueryText.lacks field operand.asText))]))
  | .regex => .ok (.leaf (.regexp field operand))
  | .present => .ok (.leaf (.present field))
  | .absent => .ok (.boolList .mustNot [.leaf (.present field)])
  | .differs => .ok (.boolList .mustNot [.leaf (.fullText field operand)])
  | .oneOf => (terms env field op operand).map .leaf
  | .noneOf => (terms env field op operand).map fun l => .bool .mustNot (.leaf l)
  | .exact => (env.keywordField op field).map fun keyword => .leaf (.term keyword operand)
  | .phrase => .ok (.leaf (.phrase field operand))
  | .phraseStart => .ok (.leaf (.phraseStart field operand))

/-- Whether a scope is the root. -/
def isRoot (scope : Option String) : Bool :=
  (scope.getD "").isEmpty

/-- The query of a search in several fields. Inside a nested scope its reserved field would be
qualified, and then names no search. -/
def multiMatch (scope : Option String) (query : Value) (type : String) (fields : List String)
    (options : Entries) : Except Error Query :=
  if isRoot scope then
    .ok (.leaf (.multiMatch (Entries.overlay
      [("query", query), ("type", .str type), ("fields", .ofStrings fields)] options)))
  else
    .error (.unsupportedOperator (.str multiMatchField) (Field.qualify multiMatchField scope))

/-- The inner hits of a nested query; without entries of their own they have a size. -/
def innerHits (env : Environment) (path : String) (options : Options Value)
    (ignoreUnmapped : Bool) : Compiled InnerHits := do
  let hits ← Options.compileNested env path (.options options)
  return ⟨if hits.isEmpty then [("size", .int env.innerHitsSize)] else hits, ignoreUnmapped⟩

mutual

/-- The query of a condition in a scope. -/
def condition (env : Environment) (scope : Option String) : Condition → Compiled Query
  | .is field v => .of (.leaf (.fullText (Field.qualify field scope) v))
  | .compare field op operand =>
    .ofExcept (comparison env (Field.qualify field scope) op operand)
  | .multiMatch query type fields options => .ofExcept (multiMatch scope query type fields options)
  | .group clause wheres => do
    let q ← tree? env scope wheres
    return .bool clause q
  | .nested path wheres scoreMode negated =>
    let path := Field.qualify path scope
    if negated then do
      -- The fields of a negated sub-tree are not qualified.
      let q ← tree? env none wheres
      return .boolList .mustNot [.nested path q scoreMode none]
    else do
      let q ← tree? env (some path) wheres
      return .nested path q scoreMode none
  | .innerNested path wheres options scoreMode ignoreUnmapped => do
    let path := Field.qualify path scope
    let inner ← innerHits env path options ignoreUnmapped
    let q ← tree? env (some path) wheres
    return .nested path q scoreMode (some inner)

/-- The query of a tree that may be absent. -/
def tree? (env : Environment) (scope : Option String) : Option Where → Compiled Query
  | none => .of .matchAll
  | some t => tree env scope t

/-- The query of a tree. -/
def tree (env : Environment) (scope : Option String) : Where → Compiled Query
  | .all cs => do
    let qs ← conditions env scope cs
    return .boolList .must qs
  | .any bs => do
    let qs ← branches env scope bs
    return .boolList .should qs
  | .only c => condition env scope c

/-- The queries of conditions, in order. -/
def conditions (env : Environment) (scope : Option String) : List Condition → Compiled (List Query)
  | [] => .of []
  | c :: cs => do
    let q ← condition env scope c
    let qs ← conditions env scope cs
    return q :: qs

/-- The queries of the branches that have a condition, in order. -/
def branches (env : Environment) (scope : Option String) :
    List (List Condition) → Compiled (List Query)
  | [] => .of []
  | b :: bs => do
    let qs ← conditions env scope b
    let more ← branches env scope bs
    return if qs.isEmpty then more else .boolList .must qs :: more

end

/-- A reading as a compile that only logs. -/
def ofParsed {α : Type} (p : Parsed α) : Compiled α :=
  p.mapEffects Effects.ofLog

end Compile

/-- A condition from any value, compiled in a scope. -/
def Condition.compile (env : Environment) (scope : Option String) (v : Value) : Compiled Query := do
  let c ← Compile.ofParsed (Condition.parse v)
  Compile.condition env scope c

/-- A tree from any value, compiled in a scope. -/
def Where.compile (env : Environment) (scope : Option String) (v : Value) : Compiled Query := do
  let t ← Compile.ofParsed (Where.ofArgument v)
  Compile.tree? env scope t

end SearchRequest
