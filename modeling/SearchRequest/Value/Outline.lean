import SearchRequest.Value.Basic
/-
The outline of a value: plain data, typed conditions, trees and options all shown as atoms,
sequences, mappings and records. What is done alike to every kind of value (writing it in a
message, comparing it, dumping it as plain data) is defined on outlines.
-/
namespace SearchRequest

/-- The kinds of sequence. -/
inductive Brackets
  | list | tuple | set | frozenset
  deriving DecidableEq, Repr

/-- The names of a field of a record: how messages call it, and the key it has in a document. -/
structure Label where
  name : String
  key : String

/-- A field called the same everywhere. -/
def Label.of (name : String) : Label := ⟨name, name⟩

/-- The outline of a value. -/
inductive Outline
  | null
  | bool (b : Bool)
  | int (i : Int)
  | float (x : Float)
  | str (s : String)
  | bytes (b : List UInt8)
  | operator (op : Operator)
  | seq (brackets : Brackets) (items : List Outline)
  | mapping (rows : List (Outline × Outline))
  | record (name : String) (fields : List (Label × Outline))

namespace Outline

instance : Inhabited Outline := ⟨null⟩

/-- An optional part, null when absent. -/
def ofOption : Option Outline → Outline
  | none => null
  | some o => o

/-- A record whose fields are called the same everywhere. -/
def plainRecord (name : String) (fields : List (String × Outline)) : Outline :=
  record name (fields.map fun (n, o) => (Label.of n, o))

/-- A list of texts. -/
def ofStrings (ss : List String) : Outline :=
  seq .list (ss.map str)

/-- Whether this is the outline of null. -/
def isNull : Outline → Bool
  | null => true
  | _ => false

end Outline

/-- The outline of a distance. -/
def Distance.outline : Distance → Outline
  | text s => .str s
  | whole i => .int i
  | real x => .float x

/-- The outline of a geographic point with its distance. -/
def GeoPoint.outline (p : GeoPoint) : Outline :=
  .record "GeoPointFilter"
    [(.of "field", .str p.field), (.of "distance", p.distance.outline),
      (⟨"geo_point", "geoPoint"⟩, .seq .tuple [.float p.lat, .float p.lon])]

/-- The outline of a seed. -/
def Seed.outline : Seed → Outline
  | whole i => .int i
  | text s => .str s

/-- The outline of a random score. -/
def RandomScore.outline (r : RandomScore) : Outline :=
  .plainRecord "RandomScore" [("column", .str r.column), ("seed", r.seed.outline)]

/-- The outline of a refresh policy. -/
def Refresh.outline : Refresh → Outline
  | flag b => .bool b
  | flagText b => .str (if b then "true" else "false")
  | waitFor => .str "wait_for"

mutual

/-- The outline of a value. -/
def Value.outline : Value → Outline
  | .null => .null
  | .bool b => .bool b
  | .int i => .int i
  | .float x => .float x
  | .str s => .str s
  | .bytes b => .bytes b
  | .list xs => .seq .list (itemsOutline xs)
  | .tuple xs => .seq .tuple (itemsOutline xs)
  | .set xs => .seq .set (itemsOutline xs)
  | .frozenset xs => .seq .frozenset (itemsOutline xs)
  | .object es => .mapping (entriesOutline es)
  | .table rs => .mapping (rowsOutline rs)
  | .condition c => conditionOutline c
  | .tree t => treeOutline t
  | .options o => optionsOutline o
  | .geoFilters f => filtersOutline f
  | .geoBox b => boxOutline b
  | .geoPoint p => p.outline
  | .randomScore r => r.outline

/-- The outlines of the items of a sequence. -/
def itemsOutline : List Value → List Outline
  | [] => []
  | v :: vs => v.outline :: itemsOutline vs

/-- The outlines of the entries of a mapping. -/
def entriesOutline : List (String × Value) → List (Outline × Outline)
  | [] => []
  | (k, v) :: es => (.str k, v.outline) :: entriesOutline es

/-- The outlines of the rows of a table. -/
def rowsOutline : List (Value × Value) → List (Outline × Outline)
  | [] => []
  | (k, v) :: rs => (k.outline, v.outline) :: rowsOutline rs

/-- The outline of a condition. -/
def conditionOutline : Condition → Outline
  | .is field value => .plainRecord "MatchCondition" [("field", .str field), ("value", value.outline)]
  | .compare field op operand =>
    .plainRecord "FieldCondition"
      [("field", .str field), ("operator", .operator op), ("operand", operand.outline)]
  | .group clause wheres =>
    .plainRecord "GroupCondition"
      [("connective", .str clause.word), ("wheres", optionalTreeOutline wheres)]
  | .nested path wheres scoreMode negated =>
    .plainRecord "NestedCondition"
      [("path", .str path), ("wheres", optionalTreeOutline wheres), ("score_mode", .str scoreMode),
        ("negated", .bool negated)]
  | .innerNested path wheres options scoreMode ignoreUnmapped =>
    .plainRecord "InnerNestedCondition"
      [("path", .str path), ("wheres", optionalTreeOutline wheres),
        ("options", optionsOutline options), ("score_mode", .str scoreMode),
        ("ignore_unmapped", .bool ignoreUnmapped)]
  | .multiMatch query type fields options =>
    .plainRecord "MultiMatchCondition"
      [("query", query.outline), ("type", .str type), ("fields", .ofStrings fields),
        ("options", .mapping (entriesOutline options))]

/-- The outline of a tree that may be absent. -/
def optionalTreeOutline : Option Where → Outline
  | none => .null
  | some t => treeOutline t

/-- The outline of a tree. -/
def treeOutline : Where → Outline
  | .all conditions => .plainRecord "LogicalAnd" [("conditions", .seq .list (conditionsOutline conditions))]
  | .any branches => .plainRecord "LogicalOr" [("branches", .seq .list (branchesOutline branches))]
  | .only condition => .plainRecord "SingleCondition" [("condition", conditionOutline condition)]

/-- The outlines of conditions. -/
def conditionsOutline : List Condition → List Outline
  | [] => []
  | c :: cs => conditionOutline c :: conditionsOutline cs

/-- The outlines of branches. -/
def branchesOutline : List (List Condition) → List Outline
  | [] => []
  | b :: bs => .seq .list (conditionsOutline b) :: branchesOutline bs

/-- The outline of a geographic box. -/
def boxOutline : GeoBox Value → Outline
  | ⟨field, topLeft, bottomRight⟩ =>
    .record "GeoBoxFilter"
      [(.of "field", .str field), (⟨"top_left", "topLeft"⟩, topLeft.outline),
        (⟨"bottom_right", "bottomRight"⟩, bottomRight.outline)]

/-- The outline of a box that may be absent. -/
def optionalBoxOutline : Option (GeoBox Value) → Outline
  | none => .null
  | some b => boxOutline b

/-- The outline of geographic filters. -/
def filtersOutline : GeoFilters Value → Outline
  | ⟨box, point⟩ =>
    .record "FilterOptions"
      [(⟨"geo_box", "filterGeoBox"⟩, optionalBoxOutline box),
        (⟨"geo_point", "filterGeoPoint"⟩, .ofOption (point.map GeoPoint.outline))]

/-- The outline of filters that may be absent. -/
def optionalFiltersOutline : Option (GeoFilters Value) → Outline
  | none => .null
  | some f => filtersOutline f

/-- The outline of a mapping that may be absent. -/
def optionalEntriesOutline : Option (List (String × Value)) → Outline
  | none => .null
  | some es => .mapping (entriesOutline es)

/-- The outline of a list that may be absent. -/
def optionalItemsOutline : Option (List Value) → Outline
  | none => .null
  | some vs => .seq .list (itemsOutline vs)

/-- The outline of a value that may be absent. -/
def optionalOutline : Option Value → Outline
  | none => .null
  | some v => v.outline

/-- The outline of an options record. -/
def optionsOutline : Options Value → Outline
  | ⟨limit, skip, sort, searchAfter, prevSearchAfter, minScore, filters, highlights, randomScore,
      multiple, searchOptions, write⟩ =>
    let shared : List (Label × Outline) :=
      [(.of "limit", .ofOption (limit.map fun n : Nat => .int n)),
        (.of "skip", .ofOption (skip.map fun n : Nat => .int n)),
        (.of "sort", optionalEntriesOutline sort),
        (.of "search_after", optionalItemsOutline searchAfter),
        (.of "prev_search_after", optionalOutline prevSearchAfter),
        (⟨"min_score", "minScore"⟩, .ofOption (minScore.map .float)),
        (.of "filters", optionalFiltersOutline filters),
        (.of "highlights", optionalEntriesOutline highlights),
        (.of "random_score", .ofOption (randomScore.map RandomScore.outline)),
        (.of "multiple", optionalOutline multiple),
        (⟨"search_options", "searchOptions"⟩, optionalOutline searchOptions)]
    match write with
    | none => .record "QueryOptions" shared
    | some control =>
      .record "WriteOptions"
        (shared ++ [(.of "refresh", .ofOption (control.refresh.map Refresh.outline))])

end

end SearchRequest
