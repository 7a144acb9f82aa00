import SearchRequest.Params
/-
Request documents whose body is a mapping or not there yet. On them no pass fails: each one takes
what it wraps out of the registry and puts it around the query, or leaves the document as it is when
nothing was registered (`Document.wrapClauses_value`, `Document.wrapFunction_value`,
`Document.wrap_value`).
-/
namespace SearchRequest

/-- A request document. -/
structure Document where
  entries : Entries
  body : Option Entries
  /-- The body is a mapping when there is one. -/
  find?_body : Entries.find? "body" entries = body.map Value.object

namespace Document

/-- The document as a value. -/
def value (d : Document) : Value :=
  .object d.entries

/-- The query in the body; one that counts as absent matches everything. -/
def query (d : Document) : Value :=
  match d.body.bind (Entries.find? "query") with
  | some q => if q.truthy then q else Query.matchAll.toValue
  | none => Query.matchAll.toValue

/-- The document with another query; a body that is absent is created. -/
def withQuery (d : Document) (q : Value) : Document :=
  let body := Entries.insert "query" q (d.body.getD [])
  { entries := Entries.insert "body" (.object body) d.entries
    body := some body
    find?_body := Entries.find?_insert_self .. }

/-- The document with its query inside filter clauses, if there are any. -/
def inClauses (d : Document) (clauses : List Value) : Document :=
  if clauses.isEmpty then d else d.withQuery (Params.withClauses clauses d.query)

/-- The document with its query inside a scoring function, if there is one. -/
def inFunction (d : Document) (function : Rows) : Document :=
  if function.isEmpty then d else d.withQuery (Params.withFunction function d.query)

theorem mapQuery_value (f : Value → Value) (d : Document) :
    Params.mapQuery f d.value = .ok (d.withQuery (f d.query)).value := by
  obtain ⟨entries, body, hbody⟩ := d
  have hobject : (Entries.find? "body" entries).getD (.object []) = .object (body.getD []) := by
    rw [hbody]
    cases body <;> rfl
  rw [value, Params.mapQuery_object f hobject]
  cases body <;> rfl

/-! ## Passes -/

theorem wrapClauses_value (d : Document) (r : Registry) :
    Params.wrapClauses d.value r = (.ok (d.inClauses r.clauses).value, { r with clauses := [] }) := by
  simp only [Params.wrapClauses, Registry.takeClauses, mapQuery_value, inClauses]
  split <;> rfl

theorem wrapFunction_value (d : Document) (r : Registry) :
    Params.wrapFunction d.value r =
      (.ok (d.inFunction r.function).value, { r with function := [] }) := by
  simp only [Params.wrapFunction, Registry.takeFunction, mapQuery_value, inFunction]
  split <;> rfl

theorem wrap_value (d : Document) (r : Registry) :
    Params.wrap d.value r = (.ok ((d.inClauses r.clauses).inFunction r.function).value,
      { r with clauses := [], function := [] }) := by
  simp only [Params.wrap, wrapClauses_value, wrapFunction_value]

end Document

end SearchRequest
