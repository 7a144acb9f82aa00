import SearchRequest.Context
import SearchRequest.Log.Message
import SearchRequest.Params
import SearchRequest.Request.Search
import SearchRequest.Where.Compile
/-
Whole requests. A builder holds what is the same for many requests; every request is compiled on
its own, and what it registers is wrapped around its query at the end.
-/
namespace SearchRequest

/-- What is the same for many requests; an absent flag takes the setting. -/
structure Builder where
  resolver : Option KeywordResolver := none
  bypass : Option Bool := none
  allowIdSort : Option Bool := none

/-- A request document with the metadata for the caller. -/
structure Request where
  params : Value
  stash : Entries

/-- A request and what was logged for it. -/
abbrev Requested := Outcome (List LogRecord) Request

namespace Builder

/-- The environment of a request. -/
def environment (b : Builder) (s : Settings) : Environment :=
  s.environment b.resolver b.bypass b.allowIdSort none

/-- A flag that may be absent, as messages show it. -/
def displayFlag (flag : Option Bool) : String :=
  (Value.ofOption (flag.map .bool)).display

/-- The builder in words. -/
def display (b : Builder) : String :=
  "<RequestBuilder: resolver=" ++ KeywordResolver.typeName b.resolver ++
    " bypass_map_validation=" ++ displayFlag b.bypass ++
    " allow_id_sort=" ++ displayFlag b.allowIdSort ++ ">"

/-- The logger of requests. -/
def logger : String := Log.loggerName "RequestBuilder"

/-- The record of a request, at the level of the settings. -/
def traced (s : Settings) (text : String) : List LogRecord :=
  Log.record (Log.Method.trace.level s) logger text

/-- Caller metadata stashed. -/
def stash (rows : Rows) : Compiled Unit :=
  if rows.isEmpty then .of ()
  else match stashable rows with
    | .ok es => .perform { stashed := es }
    | .error m => .fail (.misuse m)

/-- Options as plain data, their caller metadata stashed. -/
def prepareOptions (v : Value) : Compiled Value :=
  match Options.plain? v with
  | .error m => .fail (.misuse m)
  | .ok (.object es) =>
    match Params.splitMeta es with
    | .ok (rest, rows) => do
      stash rows
      return .object rest
    | .error m => .fail (.misuse m)
  | .ok v => .of v

/-- The entries beside the body that a request starts with. -/
def heading (index id : Value) : Entries :=
  (if index.truthy then [("index", index)] else []) ++ (if id.isNull then [] else [("id", id)])

/-- The entries of the body that select source fields. -/
def sourceEntries (columns : Value) : Except Error Entries :=
  ((Params.source columns).map (Entries.ofOption "_source")).mapError .misuse

/-- The document of a compiled query: the heading, the body, and the entries of the options merged
into both. -/
def assemble (env : Environment) (allowRefresh : Bool) (heading body : Entries)
    (columns options : Value) : Compiled Entries := do
  let source ← .ofExcept (sourceEntries columns)
  let compiled ← Options.compile env allowRefresh options
  return Params.mergeEntries (heading ++ [("body", .object (body ++ source))]) compiled.params

/-- A request from a compiled document: what was registered is wrapped around its query. -/
def finish (s : Settings) (trace : String) (c : Compiled Entries) : Requested :=
  let r := Registry.absorb {} c.effects
  match c.result with
  | .error e => ⟨c.effects.log, .error e⟩
  | .ok params =>
    match (Params.wrap (.object params) r).1 with
    | .error m => ⟨c.effects.log, .error (.misuse m)⟩
    | .ok params => ⟨c.effects.log ++ traced s trace, .ok ⟨params, r.stash⟩⟩

/-- A filtered request. -/
def request (b : Builder) (s : Settings) (index wheres options columns id : Value)
    (allowRefresh : Bool) : Requested :=
  let env := b.environment s
  finish s ("Compiled request for index " ++ index.asText) do
    let options ← prepareOptions options
    let q ← Where.compile env none wheres
    assemble env allowRefresh (heading index id) [("query", q.toValue)] columns options

/-- A free-text search request. -/
def search (b : Builder) (s : Settings) (index query searchOptions wheres options fields
    columns : Value) : Requested :=
  let env := b.environment s
  finish s ("Compiled search request for index " ++ index.asText) do
    match ← prepareOptions searchOptions with
    | .object searchOptions => do
      let options ← prepareOptions options
      let parameters ← .ofExcept (Search.parameters query fields searchOptions)
      let t ← Compile.ofParsed (Search.addTo wheres (.object parameters))
      let q ← Compile.tree env none t
      assemble env false (heading index .null)
        (Search.bodyEntries searchOptions ++ [("query", q.toValue)]) columns options
    | v => .fail (.searchOptionsNotMapping v)

/-- When a deletion becomes visible if nothing is asked for. -/
def defaultRefresh : Refresh := .waitFor

/-- The request that deletes one document. -/
def deleteOne (s : Settings) (index options id : Value) : Requested :=
  let compiled : Compiled Refresh := do
    let options ← prepareOptions options
    let o ← .ofExcept (Options.read true options)
    return (o.write.bind WriteControl.refresh).getD defaultRefresh
  match compiled.result with
  | .error e => ⟨compiled.effects.log, .error e⟩
  | .ok refresh =>
    ⟨compiled.effects.log ++
        traced s ("Compiled delete request for " ++ index.asText ++ "/" ++ id.asText),
      .ok ⟨.object [("index", index), ("id", id), ("refresh", refresh.toValue)],
        (Registry.absorb {} compiled.effects).stash⟩⟩

/-- A request that deletes: one document by its id, or all that satisfy a filter. -/
def delete (b : Builder) (s : Settings) (index wheres options id : Value) : Requested :=
  if id.isNull then b.request s index wheres options .null .null true
  else deleteOne s index options id

/-- A filter tree compiled on its own. -/
def query (b : Builder) (s : Settings) (wheres : Value) : Compiled Value :=
  (fun q => Value.entry "query" q.toValue) <$> Where.compile (b.environment s) none wheres

end Builder

end SearchRequest
