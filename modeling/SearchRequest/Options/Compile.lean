import SearchRequest.Environment
import SearchRequest.Options.Read
import SearchRequest.Options.Sort
/-
Options compiled to the entries of a request. Paging and refreshing stand beside the body, sorting
and the like in it. Geographic filters, the random score and the caller's marker of the previous
page produce no entries: they are registered, after everything that can fail.
-/
namespace SearchRequest

/-- The entries that options produce. -/
structure CompiledOptions where
  size : Option Nat := none
  start : Option Nat := none
  refresh : Option Refresh := none
  sort : Option (List Sort.Entry) := none
  searchAfter : Option (List Value) := none
  minScore : Option Float := none
  highlight : Option Entries := none

namespace CompiledOptions

/-- The entries beside the body. -/
def envelope (c : CompiledOptions) : Entries :=
  Entries.ofOption "size" (c.size.map fun n => .int n) ++
    Entries.ofOption "from" (c.start.map fun n => .int n) ++
    Entries.ofOption "refresh" (c.refresh.map Refresh.toValue)

/-- The entries of the body. -/
def body (c : CompiledOptions) : Entries :=
  Entries.ofOption "sort" (c.sort.map fun es => .list (es.map Sort.Entry.toValue)) ++
    Entries.ofOption "search_after" (c.searchAfter.map .list) ++
    Entries.ofOption "min_score" (c.minScore.map .float) ++
    Entries.ofOption "highlight" (c.highlight.map .object)

/-- The entries as a request holds them: the body is left out when it is empty. -/
def params (c : CompiledOptions) : Entries :=
  c.envelope ++ (if c.body.isEmpty then [] else [("body", .object c.body)])

/-- All entries in one mapping. -/
def flat (c : CompiledOptions) : Entries :=
  c.envelope ++ c.body

end CompiledOptions

namespace Options

/-- The logger of options. -/
def logger : String := Log.loggerName "OptionsCompiler"

/-- A record of what was registered. -/
def registered (text : String) : LogRecord :=
  ⟨Log.debug, logger, text⟩

end Options

/-- The filter clause of a geographic box. -/
def GeoBox.clause (b : GeoBox Value) : Value :=
  .object [("geo_bounding_box", .object [(b.field, .object
    [("top_left", b.topLeft), ("bottom_right", b.bottomRight)])])]

/-- The filter clause of a geographic point and a distance. -/
def GeoPoint.clause (p : GeoPoint) : Value :=
  .object [("geo_distance", .object
    (Entries.insert p.field (.object [("lat", .float p.lat), ("lon", .float p.lon)])
      [("distance", p.distance.toValue)]))]

/-- What a geographic box registers. -/
def GeoBox.effects (b : GeoBox Value) : Effects where
  clauses := [b.clause]
  log := [Options.registered ("Registered geo_bounding_box filter on " ++ b.field)]

/-- What a geographic point registers. -/
def GeoPoint.effects (p : GeoPoint) : Effects where
  clauses := [p.clause]
  log := [Options.registered ("Registered geo_distance filter on " ++ p.field)]

/-- What geographic filters register, the box before the point. -/
def GeoFilters.effects (f : GeoFilters Value) : Effects :=
  (f.box.map GeoBox.effects).getD ∅ ++ (f.point.map GeoPoint.effects).getD ∅

/-- The scoring function of a random score. -/
def RandomScore.function (r : RandomScore) : Entries :=
  [("random_score", .object [("field", .str r.column), ("seed", r.seed.toValue)])]

/-- What a random score registers. -/
def RandomScore.effects (r : RandomScore) : Effects where
  function := some r.function
  log := [Options.registered ("Registering random_score on " ++ r.column)]

namespace Options

/-- The name under which the marker of the previous page is stashed. -/
def prevSearchAfterKey : String := "prev_search_after"

/-- What options register. -/
def effects (o : Options Value) : Effects :=
  { stashed := Entries.ofOption prevSearchAfterKey o.prevSearchAfter : Effects } ++
    (o.filters.map GeoFilters.effects).getD ∅ ++ (o.randomScore.map RandomScore.effects).getD ∅

/-- The sort list of options, when there is one. -/
def compileSort (env : Environment) : Option Entries → Compiled (Option (List Sort.Entry))
  | none => .of none
  | some sort => do
    let es ← Sort.entries env.allowIdSort logger sort
    return some es

/-- Typed options compiled. -/
def compileTyped (env : Environment) (o : Options Value) : Compiled CompiledOptions := do
  let sort ← compileSort env o.sort
  Outcome.perform o.effects
  return {
    size := o.limit
    start := o.skip
    refresh := o.write.bind WriteControl.refresh
    sort
    searchAfter := o.searchAfter
    minScore := o.minScore
    highlight := o.highlights }

/-- Options compiled from any value, those of a request that may write when `write`. -/
def compile (env : Environment) (write : Bool) (v : Value) : Compiled CompiledOptions := do
  let o ← .ofExcept (read write v)
  compileTyped env o

/-- Options compiled for the inner hits at a nested path: all entries in one mapping, with the keys
of the sort list under the path. -/
def compileNested (env : Environment) (path : String) (v : Value) : Compiled Entries := do
  let c ← compile env false v
  return { c with sort := c.sort.map (Sort.under path) }.flat

end Options

end SearchRequest
