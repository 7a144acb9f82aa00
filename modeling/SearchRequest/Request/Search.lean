import SearchRequest.Decimal.Read
import SearchRequest.Text.Utf8
import SearchRequest.Value.Display
import SearchRequest.Where.Parse
/-
Free-text searches: the fields to search in with their boosts, the search clause, and the place of
the clause in a filter tree.
-/
namespace SearchRequest.Search

/-- The reserved field of the search clause. -/
def clauseField : String := "_"

/-- Whether the boost of a field is above one, when it is a number or the written form of one in
digits of any script. -/
def isBoosted (boost : Value) : Option Bool :=
  match boost with
  | .int i => some (1 < i)
  | .float x => some (1 < x)
  | .bool _ => some false
  | .str s => (Decimal.readGrouped? (s.toList.map Text.toAsciiDigit)).map (1 < ·)
  | .bytes b => ((Text.ofAscii? b).bind Decimal.readGrouped?).map (1 < ·)
  | _ => none

/-- A search field with its boost, which is written only when it is above one. -/
def boostedField (field boost : Value) : Except Error Value :=
  match isBoosted boost with
  | some true => .ok (.str (field.asText ++ "^" ++ boost.asText))
  | some false => .ok field
  | none => .error (.boostNotNumber field boost)

/-- The search fields: a single one, a mapping from fields to boosts, or a sequence of fields. -/
def boostedFields (fields : Value) : Except Error (List Value) :=
  match fields with
  | .str s => .ok [.str s]
  | .object es => es.mapM fun e => boostedField (.str e.1) e.2
  | .table rows => rows.mapM fun row => boostedField row.1 row.2
  | fields => fields.items.mapError .misuse

/-- The entries about the search fields. Several fields are searched as one. -/
def fieldEntries (fields : Value) : Except Error Entries :=
  if fields.truthy then do
    let names ← boostedFields fields
    return ("fields", .list names) ::
      (if 1 < names.length then [("type", .str "cross_fields")] else [])
  else .ok []

/-- The search option that belongs to the body and not to the clause. -/
def highlightKey : String := "highlight"

/-- The parameters of the search clause: the query and its fields, overlaid with the options. -/
def parameters (query fields : Value) (options : Entries) : Except Error Entries := do
  let fieldEntries ← fieldEntries fields
  return Entries.overlay (("query", query) :: fieldEntries) (Entries.erase highlightKey options)

/-- What the search options put into the body. -/
def bodyEntries (options : Entries) : Entries :=
  match Entries.find? highlightKey options with
  | some v => if v.truthy then [(highlightKey, v)] else []
  | none => []

/-- The condition that searches. -/
def clause (parameters : Value) : Condition :=
  .compare clauseField .search parameters

/-- A filter tree with a condition added to every way in which it can hold. -/
def splice (c : Condition) : Option Where → Where
  | none => .only c
  | some (.all cs) => .all (cs ++ [c])
  | some (.any []) => .only c
  | some (.any bs) => .any (bs.map (· ++ [c]))
  | some (.only d) => .all [d, c]

/-- A filter tree from any value with the search clause added. -/
def addTo (wheres parameters : Value) : Parsed Where := do
  let t ← Where.ofArgument wheres
  return splice (clause parameters) t

end SearchRequest.Search
