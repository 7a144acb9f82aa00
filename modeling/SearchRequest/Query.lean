import SearchRequest.Value.Basic
/-
The query documents of the search engine, as far as the compiler produces them. A query is one
entry: the word for its kind and what belongs to it.
-/
namespace SearchRequest

/-- A query about the fields of one document. -/
inductive Leaf
  | term (field : String) (value : Value)
  | terms (field : String) (values : List Value)
  | fullText (field : String) (value : Value)
  | phrase (field : String) (value : Value)
  | phraseStart (field : String) (value : Value)
  | range (field : String) (bounds : Entries)
  | regexp (field : String) (value : Value)
  | present (field : String)
  | queryString (parameters : Entries)
  | multiMatch (parameters : Entries)

/-- How the matching children of a nested query are returned. -/
structure InnerHits where
  hits : Entries
  ignoreUnmapped : Bool

/-- A query. -/
inductive Query
  | matchAll
  | leaf (l : Leaf)
  /-- A boolean query with one clause that holds one query. -/
  | bool (clause : Clause) (query : Query)
  /-- A boolean query with one clause that holds a list of queries. -/
  | boolList (clause : Clause) (queries : List Query)
  /-- Some child document at `path` satisfies the query. -/
  | nested (path : String) (query : Query) (scoreMode : String) (inner : Option InnerHits)

/-- A value under a single key. -/
def Value.entry (key : String) (v : Value) : Value :=
  .object [(key, v)]

/-- The document of a leaf. -/
def Leaf.toValue : Leaf → Value
  | term field v => .entry "term" (.entry field v)
  | terms field vs => .entry "terms" (.entry field (.list vs))
  | fullText field v => .entry "match" (.entry field v)
  | phrase field v => .entry "match_phrase" (.entry field v)
  | phraseStart field v => .entry "match_phrase_prefix" (.entry field (.entry "query" v))
  | range field bounds => .entry "range" (.entry field (.object bounds))
  | regexp field v => .entry "regexp" (.entry field (.entry "value" v))
  | present field => .entry "exists" (.entry "field" (.str field))
  | queryString parameters => .entry "query_string" (.object parameters)
  | multiMatch parameters => .entry "multi_match" (.object parameters)

/-- What a nested document says beside its path and its query. -/
def nestedEntries (scoreMode : String) : Option InnerHits → Entries
  | none => [("score_mode", .str scoreMode)]
  | some inner =>
    [("inner_hits", .object inner.hits), ("score_mode", .str scoreMode),
      ("ignore_unmapped", .bool inner.ignoreUnmapped)]

namespace Query

mutual

/-- The document of a query. -/
def toValue : Query → Value
  | matchAll => .entry "match_all" (.object [])
  | leaf l => l.toValue
  | bool clause q => .entry "bool" (.entry clause.word q.toValue)
  | boolList clause qs => .entry "bool" (.entry clause.word (.list (toValues qs)))
  | nested path q scoreMode inner =>
    .entry "nested" (.object
      ([("path", .str path), ("query", q.toValue)] ++ nestedEntries scoreMode inner))

/-- The documents of a list of queries. -/
def toValues : List Query → List Value
  | [] => []
  | q :: qs => q.toValue :: toValues qs

end

theorem toValues_eq_map (qs : List Query) : toValues qs = qs.map toValue := by
  induction qs with
  | nil => rfl
  | cons q qs ih => rw [toValues, ih, List.map_cons]

/-- Every query is a document of one entry. -/
theorem exists_toValue_eq_entry (q : Query) : ∃ key v, q.toValue = .entry key v := by
  match q with
  | matchAll | bool .. | boolList .. | nested .. => exact ⟨_, _, rfl⟩
  | leaf l => cases l <;> exact ⟨_, _, rfl⟩

theorem truthy_toValue (q : Query) : q.toValue.truthy = true := by
  obtain ⟨key, v, hv⟩ := q.exists_toValue_eq_entry
  rw [hv]
  rfl

end Query

end SearchRequest
