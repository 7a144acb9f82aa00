import SearchRequest.Entries
import SearchRequest.Value.Parts
import SearchRequest.Registry
import SearchRequest.Query
/-
The request document: merging entries into it, selecting source fields, setting caller metadata
apart, and wrapping its query in what was registered beside it.
-/
namespace SearchRequest.Params

/-- An entry merged into a document: a mapping under a key that holds a mapping is merged with it,
everything else replaces what is there. -/
def mergeEntry (params : Entries) (e : String × Value) : Entries :=
  match Entries.find? e.1 params, e.2 with
  | some (.object current), .object new =>
    Entries.insert e.1 (.object (Entries.overlay current new)) params
  | _, v => Entries.insert e.1 v params

/-- Entries merged into a document, in order. -/
def mergeEntries (params fragment : Entries) : Entries :=
  fragment.foldl mergeEntry params

/-- A fragment merged into a document, both of any kind. -/
def merge (params fragment : Value) : Except Misuse Value :=
  match fragment, params with
  | .object [], params => .ok params
  | .object es, .object params => .ok (.object (mergeEntries params es))
  | _, _ => .error .part

/-- The name that selects every field. -/
def wildcard : String := "*"

/-- Whether columns select every field. -/
def isWildcard (columns : Value) : Bool :=
  match columns with
  | .str s => s.isEmpty || s == wildcard
  | .list [.str s] | .tuple [.str s] => s == wildcard
  | columns => !columns.truthy

/-- The source fields that columns select, when they do not select all. -/
def source (columns : Value) : Except Misuse (Option Value) :=
  if isWildcard columns then .ok none
  else match columns with
    | .str s => .ok (some (.str s))
    | columns => columns.items.map fun vs => some (.list vs)

/-- The key of caller metadata in options. -/
def metaKey : String := "_meta"

/-- Caller metadata as rows; what counts as absent has none. -/
def metaRows (v : Option Value) : Except Misuse Rows :=
  match v with
  | some v => if v.truthy then v.rows else .ok []
  | none => .ok []

/-- The entries of options without the caller metadata, and the metadata. -/
def splitMeta (es : Entries) : Except Misuse (Entries × Rows) :=
  (metaRows (Entries.find? metaKey es)).map fun rows => (Entries.erase metaKey es, rows)

/-- Options of any kind without the caller metadata, and the metadata. -/
def splitMetaOf (v : Value) : Except Misuse (Value × Value) :=
  if !v.truthy then .ok (.object [], .object [])
  else do
    let rows ← v.rows
    let isMeta (row : Value × Value) : Bool := row.1.same (.str metaKey)
    let found ← metaRows ((rows.find? isMeta).map (·.2))
    return (Rows.toValue (rows.filter (!isMeta ·)), Rows.toValue found)

/-- The query wrapped with filter clauses. A single clause stands alone, several form a list. -/
def withClauses (clauses : List Value) (query : Value) : Value :=
  let filter := match clauses with
    | [clause] => clause
    | clauses => .list clauses
  .entry "bool" (.object [("must", .list [query]), ("filter", filter)])

/-- The query wrapped with a scoring function. -/
def withFunction (function : Rows) (query : Value) : Value :=
  .entry "function_score"
    (Rows.toValue (function.foldl (fun rows row => Rows.insert row.1 row.2 rows)
      [(.str "query", query)]))

/-- The query that stands where a query may be: one that counts as absent matches everything. -/
def currentQuery (q : Option Value) : Value :=
  match q with
  | some q => if q.truthy then q else Query.matchAll.toValue
  | none => Query.matchAll.toValue

/-- The document with the query in its body changed. A body that is absent is created. -/
def mapQuery (f : Value → Value) (params : Value) : Except Misuse Value :=
  let body := (params.under? "body").getD (.object [])
  if params.isMapping && body.isMapping then
    .ok (params.put "body" (body.put "query" (f (currentQuery (body.under? "query")))))
  else .error .part

/-- The query of a document with a body whose keys are texts, and of one without a body. -/
theorem mapQuery_object (f : Value → Value) {es body : Entries}
    (h : (Entries.find? "body" es).getD (.object []) = .object body) :
    mapQuery f (.object es) = .ok (.object (Entries.insert "body" (.object
      (Entries.insert "query" (f (currentQuery (Entries.find? "query" body))) body)) es)) := by
  have hbody : ((Value.object es).under? "body").getD (.object []) = .object body := h
  simp only [mapQuery, hbody]
  rfl

/-- The filter clauses taken out of the registry and wrapped around the query. -/
def wrapClauses (params : Value) (r : Registry) : Except Misuse Value × Registry :=
  let (clauses, r) := r.takeClauses
  (if clauses.isEmpty then .ok params else mapQuery (withClauses clauses) params, r)

/-- The scoring function taken out of the registry and wrapped around the query. -/
def wrapFunction (params : Value) (r : Registry) : Except Misuse Value × Registry :=
  let (function, r) := r.takeFunction
  (if function.isEmpty then .ok params else mapQuery (withFunction function) params, r)

/-- Everything registered wrapped around the query: the filter clauses, and the scoring function
around them. -/
def wrap (params : Value) (r : Registry) : Except Misuse Value × Registry :=
  match wrapClauses params r with
  | (.ok params, r) => wrapFunction params r
  | failed => failed

end SearchRequest.Params
