import SearchRequest.Value.Rows
import SearchRequest.Error.Misuse
/-
Taking values apart where any kind of value is given: the named parts of a typed value, the items
of whatever can be gone through, and the rows of whatever can be read as a mapping.
-/
namespace SearchRequest

/-- A distance as a value. -/
def Distance.toValue : Distance → Value
  | text s => .str s
  | whole i => .int i
  | real x => .float x

/-- A seed as a value. -/
def Seed.toValue : Seed → Value
  | whole i => .int i
  | text s => .str s

/-- A refresh policy as a value. -/
def Refresh.toValue : Refresh → Value
  | flag b => .bool b
  | flagText b => .str (if b then "true" else "false")
  | waitFor => .str "wait_for"

/-- The named parts of options. -/
def Options.parts (o : Options Value) : Entries :=
  let shared : Entries :=
    [("limit", .ofOption (o.limit.map fun n => .int n)),
      ("skip", .ofOption (o.skip.map fun n => .int n)),
      ("sort", .ofOption (o.sort.map .object)),
      ("search_after", .ofOption (o.searchAfter.map .list)),
      ("prev_search_after", .ofOption o.prevSearchAfter),
      ("min_score", .ofOption (o.minScore.map .float)),
      ("filters", .ofOption (o.filters.map .geoFilters)),
      ("highlights", .ofOption (o.highlights.map .object)),
      ("random_score", .ofOption (o.randomScore.map .randomScore)),
      ("multiple", .ofOption o.multiple),
      ("search_options", .ofOption o.searchOptions)]
  match o.write with
  | none => shared
  | some control => shared ++ [("refresh", .ofOption (control.refresh.map Refresh.toValue))]

/-- The named parts of a condition. -/
def Condition.parts : Condition → Entries
  | .is field value => [("field", .str field), ("value", value)]
  | .compare field op operand =>
    [("field", .str field), ("operator", .str op.word), ("operand", operand)]
  | .group clause wheres => [("connective", .str clause.word), ("wheres", .ofTree? wheres)]
  | .nested path wheres scoreMode negated =>
    [("path", .str path), ("wheres", .ofTree? wheres), ("score_mode", .str scoreMode),
      ("negated", .bool negated)]
  | .innerNested path wheres options scoreMode ignoreUnmapped =>
    [("path", .str path), ("wheres", .ofTree? wheres), ("options", .options options),
      ("score_mode", .str scoreMode), ("ignore_unmapped", .bool ignoreUnmapped)]
  | .multiMatch query type fields options =>
    [("query", query), ("type", .str type), ("fields", .ofStrings fields),
      ("options", .object options)]

/-- The named parts of a tree. -/
def Where.parts : Where → Entries
  | .all conditions => [("conditions", .list (conditions.map .condition))]
  | .any branches => [("branches", .list (branches.map fun b => .list (b.map .condition)))]
  | .only condition => [("condition", .condition condition)]

namespace Value

/-- The named parts of a typed value; a plain value has none. -/
def parts? : Value → Option Entries
  | condition c => some c.parts
  | tree t => some t.parts
  | options o => some o.parts
  | geoFilters f =>
    some [("geo_box", .ofOption (f.box.map .geoBox)), ("geo_point", .ofOption (f.point.map .geoPoint))]
  | geoBox b => some [("field", .str b.field), ("top_left", b.topLeft), ("bottom_right", b.bottomRight)]
  | geoPoint p =>
    some [("field", .str p.field), ("distance", p.distance.toValue),
      ("geo_point", .tuple [.float p.lat, .float p.lon])]
  | randomScore r => some [("column", .str r.column), ("seed", r.seed.toValue)]
  | _ => none

/-- The items of a sequence or a typed value, whose items are pairs of a name and a part. -/
def sequence? : Value → Option (List Value)
  | list xs | tuple xs | set xs | frozenset xs => some xs
  | v => v.parts?.map fun es => es.map fun (k, p) => tuple [str k, p]

/-- What is met in going through a value: the items of a sequence, the characters of a text, the
numbers of bytes, the keys of a mapping. Other values cannot be gone through. -/
def items : Value → Except Misuse (List Value)
  | str s => .ok (s.toList.map fun c => str (String.singleton c))
  | bytes b => .ok (b.map fun n => int n.toNat)
  | object es => .ok (es.map fun e => str e.1)
  | table rows => .ok (rows.map (·.1))
  | v =>
    match v.sequence? with
    | some xs => .ok xs
    | none => .error .kind

/-- The row that an item of two parts is. -/
def row (item : Value) : Except Misuse (Value × Value) :=
  match item.items with
  | .ok [k, v] => if k.isKey then .ok (k, v) else .error .kind
  | .ok _ => .error .length
  | .error e => .error e

/-- The rows of items of two parts each; of equal keys the last one wins. -/
def rowsOfItems : List Value → Rows → Except Misuse Rows
  | [], rows => .ok rows
  | item :: items, rows =>
    match item.row with
    | .ok (k, v) => rowsOfItems items (Rows.insert k v rows)
    | .error e => .error e

/-- The rows of a value read as a mapping: its own if it is one, and otherwise its items, which
must have two parts each. -/
def rows : Value → Except Misuse Rows
  | object es => .ok (Rows.ofEntries es)
  | table rows => .ok rows
  | v =>
    match v.items with
    | .ok items => rowsOfItems items []
    | .error e => .error e

end Value

end SearchRequest
