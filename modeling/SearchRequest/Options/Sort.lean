import SearchRequest.Field
import SearchRequest.Registry
import SearchRequest.Value.Rows
/-
Sort options. Each field with its payload becomes one entry, in order; only entries on the
document id are dropped when they are not allowed.
-/
namespace SearchRequest.Sort

/-- The field of the document id. -/
def idField : String := "_id"

/-- One entry of a sort list: a key and what belongs to it. -/
abbrev Entry := String × Value

/-- The document of an entry. -/
def Entry.toValue (e : Entry) : Value :=
  .object [e]

/-- The entries among `keys` that have a value other than null, added to `spec`. -/
def addPresent (payload : Entries) (keys : List String) (spec : Entries) : Entries :=
  keys.foldl (fun spec key =>
    match Entries.find? key payload with
    | none | some .null => spec
    | some v => Entries.insert key v spec) spec

/-- The value of a key if it counts as present, and a default otherwise. -/
def presentOr (payload : Entries) (key : String) (default : Value) : Value :=
  match Entries.find? key payload with
  | some v => if v.truthy then v else default
  | none => default

/-- Whether a key has a value that counts as present. -/
def isSet (payload : Entries) (key : String) : Bool :=
  (presentOr payload key .null).truthy

/-- The direction of a payload; it is ascending by default. -/
def order (payload : Entries) : Value :=
  presentOr payload "order" (.str "asc")

/-- An entry that sorts by the distance to a point. -/
def byDistance (field : String) (pin : Value) (payload : Entries) : Entry :=
  ("_geo_distance", .object
    (addPresent payload ["unit", "mode", "distance_type"]
      (Entries.insert "order" (order payload) [(field, pin)])))

/-- An entry that sorts by a field. The path of a nested field is its first segment by default. -/
def byField (field : String) (payload : Entries) : Entry :=
  let spec := addPresent payload ["mode", "missing", "unmapped_type"] [("order", order payload)]
  let nested : Entries :=
    if isSet payload "is_nested" then
      [("nested", .object [("path", presentOr payload "path" (.str (Field.firstSegment field)))])]
    else []
  (field, .object (spec ++ nested))

/-- The entry for a field and the entries of its payload. -/
def ofMapping (field : String) (payload : Entries) : Except Error Entry :=
  if isSet payload "is_geo" then
    match Entries.find? "pin" payload with
    | none | some .null => .error (.sortWithoutPin field)
    | some pin => .ok (byDistance field pin payload)
  else .ok (byField field payload)

/-- The entries of a payload that is a mapping. Rows whose key is no text are never read. -/
def mapping? : Value → Option Entries
  | .object es => some es
  | .table rows => some (rows.filterMap fun (k, v) => k.text?.map (·, v))
  | _ => none

/-- The entry for a field and its payload, if it is kept. -/
def entry (allowId : Bool) (field : String) (payload : Value) : Except Error (Option Entry) :=
  if field = idField && !allowId then .ok none
  else match payload with
    | .str direction => .ok (some (field, .str direction))
    | v =>
      match mapping? v with
      | some es => (ofMapping field es).map some
      | none => .error (.sortPayload field)

/-- The record of a dropped entry. -/
def dropped (logger field : String) : LogRecord where
  level := Log.debug
  logger := logger
  text := "Dropping sort entry for " ++ field

/-- The entries of a sort list. -/
def entries (allowId : Bool) (logger : String) : Entries → Compiled (List Entry)
  | [] => .of []
  | (field, payload) :: rest =>
    match entry allowId field payload with
    | .error e => .fail e
    | .ok (some kept) => do
      let more ← entries allowId logger rest
      return kept :: more
    | .ok none => do
      Outcome.perform (.ofLog [dropped logger field])
      entries allowId logger rest

/-- A sort list inside a nested path: every key is under the path. -/
def under (path : String) (es : List Entry) : List Entry :=
  es.map fun (key, v) => (if Field.isUnder path key then key else path ++ "." ++ key, v)

end SearchRequest.Sort
