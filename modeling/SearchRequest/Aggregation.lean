import SearchRequest.Error.Basic
import SearchRequest.Text.Occurrence
import SearchRequest.Value.Display
import SearchRequest.Value.Parts
/-
Aggregations that group documents by one column after another. Every column has a level of buckets
of its own, inside those of the column before.
-/
namespace SearchRequest.Aggregation

/-- A direction: ascending only when it is asked for. -/
def direction (v : Value) : Value :=
  match v with
  | .str "asc" => .str "asc"
  | _ => .str "desc"

/-- The item of a sequence at a position, counted from the end when negative. -/
def itemAt (items : List Value) (position : Int) : Except Misuse Value :=
  let n := if position < 0 then position + items.length else position
  if n < 0 then .error .index
  else match items[n.toNat]? with
    | some v => .ok v
    | none => .error .index

/-- What a sequence holds under a name that is one of its items; only numbers are positions. -/
def lookUpItem (items : List Value) (name : Value) : Except Misuse (Option Value) :=
  if items.any (name.same ·) then
    match name with
    | .int i => (itemAt items i).map some
    | .bool b => (itemAt items (if b then 1 else 0)).map some
    | _ => .error .kind
  else .ok none

/-- What a sort order holds under a name, if it mentions the name at all. -/
def lookUp (sort name : Value) : Except Misuse (Option Value) :=
  match sort with
  | .object es =>
    match name with
    | .str s => .ok (Entries.find? s es)
    | name => if name.isKey then .ok none else .error .kind
  | .table rows => if name.isKey then .ok (Rows.lookup? name rows) else .error .kind
  | .str s =>
    match name with
    | .str part =>
      if Text.occursIn part.toList s.toList then .error .kind else .ok none
    | _ => .error .kind
  | .list items | .tuple items => lookUpItem items name
  | .set items | .frozenset items =>
    match name with
    | .set _ => if items.any (name.same ·) then .error .kind else .ok none
    | name => if !name.isKey || items.any (name.same ·) then .error .kind else .ok none
  | sort =>
    match sort.parts? with
    | some parts =>
      if parts.any fun (k, v) => name.same (.tuple [.str k, v]) then .error .kind else .ok none
    | none => .error .kind

/-- The order of the buckets of a column: by document count, then by key, as the sort order says. -/
def order (sort column : Value) : Except Misuse (List Value) := do
  let count ← lookUp sort (.str "_count")
  let key ← lookUp sort column
  return ((count.map fun v => .object [("_count", direction v)]).toList ++
    (key.map fun v => .object [("_key", direction v)]).toList)

/-- The terms of a column. -/
def terms (sort size column : Value) : Except Misuse Value :=
  (order sort column).map fun order =>
    .object ([("field", column), ("size", size)] ++
      if order.isEmpty then [] else [("order", .list order)])

/-- One level of buckets for every column, each inside the one before. -/
def levels (sort size : Value) : List Value → Except Misuse Entries
  | [] => .ok []
  | column :: rest => do
    let terms ← terms sort size column
    let below ← levels sort size rest
    let inner : Entries := if below.isEmpty then [] else [("aggs", .object below)]
    return [("by_" ++ column.asText, .object (("terms", terms) :: inner))]

/-- The columns that a value lists. -/
def columnsOf (columns : Value) : Except Error (List Value) :=
  match columns with
  | .list (c :: cs) | .tuple (c :: cs) => .ok (c :: cs)
  | .bytes (b :: bs) => .ok ((b :: bs).map fun n => .int n.toNat)
  | .object (_ :: _) => .error (.misuse .key)
  | .str s => .error (.noColumns (.str s))
  | columns => .error (if columns.truthy then .misuse .kind else .noColumns columns)

/-- The aggregation over columns with a sort order and a bucket size; what counts as absent gives
no order and the default size. -/
def build (columns sort bucketSize : Value) (defaultSize : Int) : Except Error Value := do
  let cs ← columnsOf columns
  let sort := if sort.truthy then sort else .object []
  let size := if bucketSize.truthy then bucketSize else .int defaultSize
  let es ← (levels sort size cs).mapError .misuse
  return .object es

end SearchRequest.Aggregation
