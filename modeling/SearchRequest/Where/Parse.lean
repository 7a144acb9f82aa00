import SearchRequest.Where.Payload
import SearchRequest.Options.Read
import SearchRequest.Log.Level
import SearchRequest.Outcome
/-
Filter trees from any value. Typed trees and conditions are taken as they are at any depth, what
counts as absent is no tree, and everything else follows the grammar:

* `and` with a list of conditions, `or` with a list of branches, or a single condition;
* a branch is a list of conditions, or a mapping whose values are lists of conditions;
* a condition is one field with an operand, or with one operator and its operand.

When a mapping holds both connectives the first one counts, and a warning is logged.
-/
namespace SearchRequest

/-- A reading: a result, and the warnings logged on the way to it. -/
abbrev Parsed (α : Type) := Outcome (List LogRecord) α

namespace Parse

/-- The connectives. -/
def connectives : List String := ["and", "or"]

/-- Whether a key is a connective. -/
def isConnective (key : String) : Bool :=
  connectives.contains key

/-- The logger of warnings about trees. -/
def logger : String := Log.loggerName "querydsl.nodes"

/-- The warning about a connective that is ignored. -/
def ignoredWarning (honored ignored : String) : LogRecord where
  level := Log.warning
  logger := logger
  text := "Where-tree has both 'and' and 'or'; honoring '" ++ honored ++ "' and ignoring '" ++
    ignored ++ "'"

/-- The warnings about a mapping whose keys are all connectives. -/
def warnings : List String → List LogRecord
  | honored :: ignored :: _ => [ignoredWarning honored ignored]
  | _ => []

/-- A search in several fields from its operand. -/
def multiMatch (field : String) (v : Value) : Parsed Condition :=
  .ofExcept ((Payload.read field multiMatchField Payload.multiMatch v).map fun p =>
    .multiMatch p.query p.type p.fields (p.options.getD []))

/-- The failure for an operator mapping whose keys are not all texts: it names no operator. -/
def noOperator (field : String) : Rows → Error
  | [(key, _)] => .unsupportedOperator key field
  | rows => .notOneOperator field (rows.map (·.1))

mutual

/-- A tree from any value. -/
def tree? : Value → Parsed (Option Where)
  | .tree t => .of (some t)
  | .condition c => .of (some (.only c))
  | .object [] => .of none
  | .object ((key, v) :: rest) =>
    let keys := key :: Entries.keys rest
    if !keys.any isConnective then
      match rest with
      | [] => do
        let c ← entry key v
        return some (.only c)
      | _ => .fail (.notOneCondition (.object ((key, v) :: rest)))
    else if !keys.all isConnective then .fail (.mixedTree keys)
    else do
      Outcome.perform (warnings keys)
      if key = "and" then
        let cs ← conditions key v
        return some (.all cs)
      else
        let bs ← branches v
        return some (.any bs)
  | v => if v.truthy then .fail (.notATree v) else .of none

/-- A condition from any value. -/
def condition : Value → Parsed Condition
  | .condition c => .of c
  | .object [(field, operand)] => entry field operand
  | v => .fail (.notOneCondition v)

/-- A condition from a field and its operand. -/
def entry (field : String) : Value → Parsed Condition
  | .object es =>
    if field = multiMatchField then multiMatch field (.object es)
    else match es with
      | [(word, v)] =>
        match Verb.ofWord? word with
        | some verb => underVerb field verb v
        | none => .fail (.unsupportedOperator (.str word) field)
      | es => .fail (.notOneOperator field ((Entries.keys es).map .str))
  | v =>
    if field = multiMatchField then multiMatch field v
    else match v with
      | .list _ | .tuple _ | .set _ => .fail (.bareSequence field)
      | .table rows => .fail (noOperator field rows)
      | v => .of (.is field v)

/-- A condition from a field, a verb and the operand of the verb. -/
def underVerb (field : String) : Verb → Value → Parsed Condition
  | .compare op, v => .of (.compare field op v)
  | .group, .object es => do
    let _ ← .ofExcept (Payload.readEntries field Verb.group.word Payload.group es)
    match Clause.ofWord? field with
    | none => .fail (.notAClause field)
    | some clause =>
      let t ← wheres es
      return .group clause t
  | .nested negated, .object es => do
    let p ← .ofExcept (Payload.readEntries field (Verb.nested negated).word Payload.nested es)
    let t ← wheres es
    return .nested field t p.scoreMode negated
  | .innerNested, .object es => do
    let p ← .ofExcept (Payload.readEntries field Verb.innerNested.word Payload.innerNested es)
    let t ← wheres es
    let o ← .ofExcept (Options.read false p.options)
    return .innerNested field t o p.scoreMode p.ignoreUnmapped
  | verb, v => .fail (.payloadNotMapping field verb.word v)

/-- The sub-tree among the entries of a payload; an absent one is no tree. -/
def wheres : Entries → Parsed (Option Where)
  | [] => .of none
  | (key, v) :: rest => if key = wheresKey then tree? v else wheres rest

/-- Conditions from any value, which must be a list of them. -/
def conditions (connective : String) : Value → Parsed (List Condition)
  | .list vs => conditionList vs
  | .tuple vs => conditionList vs
  | v => .fail (.notConditions connective v)

/-- The conditions of a list. -/
def conditionList : List Value → Parsed (List Condition)
  | [] => .of []
  | v :: vs => do
    let c ← condition v
    let cs ← conditionList vs
    return c :: cs

/-- Branches from any value, which must be a list of them. -/
def branches : Value → Parsed (List (List Condition))
  | .list vs => branchList vs
  | .tuple vs => branchList vs
  | v => .fail (.notBranches v)

/-- The branches of a list. -/
def branchList : List Value → Parsed (List (List Condition))
  | [] => .of []
  | v :: vs => do
    let b ← branch v
    let bs ← branchList vs
    return b :: bs

/-- A branch from any value. -/
def branch : Value → Parsed (List Condition)
  | .object es => branchEntries es
  | .list vs => conditionList vs
  | .tuple vs => conditionList vs
  | v => .fail (.notConditions "or" v)

/-- The conditions of all entries of a branch, conjoined. -/
def branchEntries : Entries → Parsed (List Condition)
  | [] => .of []
  | (key, v) :: rest => do
    let cs ← conditions key v
    let more ← branchEntries rest
    return cs ++ more

end

end Parse

namespace Where

/-- A tree from any value. -/
def parse (v : Value) : Parsed (Option Where) :=
  Parse.tree? v

/-- A value handed in as a tree: typed values and mappings pass, and what counts as absent becomes
null. -/
def argument (v : Value) : Except Error Value :=
  if v.isTyped then .ok v
  else if !v.truthy then .ok .null
  else if v.isMapping then .ok v
  else .error (.notATreeArgument v)

/-- A tree from a value handed in as one. -/
def ofArgument (v : Value) : Parsed (Option Where) := do
  let v ← .ofExcept (argument v)
  parse v

end Where

/-- A condition from any value. -/
def Condition.parse (v : Value) : Parsed Condition :=
  Parse.condition v

end SearchRequest
