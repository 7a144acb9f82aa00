import SearchRequest.Operator
import SearchRequest.Options.Basic
/-
The values of the request language: plain data as it is read from a document, together with
filter trees and options that are already in their typed form. Plain and typed parts mix at any
depth, so the three types are defined together.
-/
namespace SearchRequest

mutual

/-- A value of the request language. -/
inductive Value
  | null
  | bool (b : Bool)
  | int (i : Int)
  | float (x : Float)
  | str (s : String)
  | bytes (b : List UInt8)
  | list (items : List Value)
  | tuple (items : List Value)
  | set (items : List Value)
  | frozenset (items : List Value)
  /-- A mapping whose keys are texts, in the order of insertion. -/
  | object (entries : List (String × Value))
  /-- A mapping that has a key other than a text. -/
  | table (rows : List (Value × Value))
  | condition (c : Condition)
  | tree (t : Where)
  | options (o : Options Value)
  | geoFilters (f : GeoFilters Value)
  | geoBox (b : GeoBox Value)
  | geoPoint (p : GeoPoint)
  | randomScore (r : RandomScore)

/-- One condition of a filter tree. -/
inductive Condition
  /-- The field matches a single value. -/
  | is (field : String) (value : Value)
  /-- The field stands in the relation `op` to the operand. -/
  | compare (field : String) (op : Operator) (operand : Value)
  /-- A sub-tree under one clause of a boolean query. -/
  | group (clause : Clause) (wheres : Option Where)
  /-- Some child document at `path` satisfies the sub-tree, or none does when `negated`. -/
  | nested (path : String) (wheres : Option Where) (scoreMode : String) (negated : Bool)
  /-- As `nested`, and the matching children are returned under their own options. -/
  | innerNested (path : String) (wheres : Option Where) (options : Options Value)
      (scoreMode : String) (ignoreUnmapped : Bool)
  /-- One text searched in several fields. -/
  | multiMatch (query : Value) (type : String) (fields : List String)
      (options : List (String × Value))

/-- A filter tree. The absence of a tree is `none : Option Where`. -/
inductive Where
  /-- All of the conditions hold. -/
  | all (conditions : List Condition)
  /-- All conditions of some branch hold. -/
  | any (branches : List (List Condition))
  | only (condition : Condition)

end

instance : Inhabited Value := ⟨.null⟩

/-- The entries of a mapping with text keys, in the order of insertion. -/
abbrev Entries := List (String × Value)

namespace Value

/-- The value that stands for an optional one. -/
def ofOption : Option Value → Value
  | none => null
  | some v => v

/-- A list of texts as a value. -/
def ofStrings (ss : List String) : Value :=
  list (ss.map str)

/-- An optional text as a value. -/
def ofString? : Option String → Value
  | none => null
  | some s => str s

/-- An optional tree as a value. -/
def ofTree? : Option Where → Value
  | none => null
  | some t => tree t

/-- Whether a value counts as present: null, false, zero and everything empty do not, and typed
parts always do. -/
def truthy : Value → Bool
  | null => false
  | bool b => b
  | int i => i != 0
  | float x => !(x == 0)
  | str s => !s.isEmpty
  | bytes b => !b.isEmpty
  | list xs | tuple xs | set xs | frozenset xs => !xs.isEmpty
  | object es => !es.isEmpty
  | table rs => !rs.isEmpty
  | condition _ | tree _ | options _ | geoFilters _ | geoBox _ | geoPoint _ | randomScore _ => true

/-- Whether a value is null. -/
def isNull : Value → Bool
  | null => true
  | _ => false

/-- Whether a value is a mapping. -/
def isMapping : Value → Bool
  | object _ | table _ => true
  | _ => false

/-- Whether a value is in typed form. -/
def isTyped : Value → Bool
  | condition _ | tree _ | options _ | geoFilters _ | geoBox _ | geoPoint _ | randomScore _ => true
  | _ => false

end Value

/-- The word that names the type of a condition. -/
def Condition.typeName : Condition → String
  | .is .. => "MatchCondition"
  | .compare .. => "FieldCondition"
  | .group .. => "GroupCondition"
  | .nested .. => "NestedCondition"
  | .innerNested .. => "InnerNestedCondition"
  | .multiMatch .. => "MultiMatchCondition"

/-- The word that names the type of a tree. -/
def Where.typeName : Where → String
  | .all _ => "LogicalAnd"
  | .any _ => "LogicalOr"
  | .only _ => "SingleCondition"

/-- The word that names the type of an options record. -/
def Options.typeName {V : Type} (o : Options V) : String :=
  if o.write.isSome then "WriteOptions" else "QueryOptions"

/-- The word that messages use for the type of a value. -/
def Value.typeName : Value → String
  | null => "NoneType"
  | bool _ => "bool"
  | int _ => "int"
  | float _ => "float"
  | str _ => "str"
  | bytes _ => "bytes"
  | list _ => "list"
  | tuple _ => "tuple"
  | set _ => "set"
  | frozenset _ => "frozenset"
  | object _ | table _ => "dict"
  | condition c => c.typeName
  | tree t => t.typeName
  | options o => o.typeName
  | geoFilters _ => "FilterOptions"
  | geoBox _ => "GeoBoxFilter"
  | geoPoint _ => "GeoPointFilter"
  | randomScore _ => "RandomScore"

end SearchRequest
