import SearchRequest.Validation.Scalar
/-
Options read from a mapping. The fields are read in a fixed order, whatever the order of the
keys; a key that is no field of its record is a failure, reported after the fields.
-/
namespace SearchRequest

open Validated (valid invalid fail required optional onlyKeys)

namespace Validate

/-- A distance: a text or a number stays what it is, a flag counts as a whole number. -/
def distance : Value → Validated Distance
  | .str s => valid (.text s)
  | .int i => valid (.whole i)
  | .float x => valid (.real x)
  | v =>
    (((string v).map Distance.text).under "str").orElse
      ((((integer v).map Distance.whole).under "int").orElse
        (((number v).map Distance.real).under "float"))

/-- A pair of numbers; the positions that are absent are failures of their own. -/
def coordinates (v : Value) : Validated (Float × Float) :=
  match v.sequence? with
  | none => fail .notTuple
  | some [] => invalid ⟨["0"], .missing⟩ [⟨["1"], .missing⟩]
  | some [a] => Prod.mk <$> (number a).under "0" <*> invalid ⟨["1"], .missing⟩ []
  | some [a, b] => Prod.mk <$> (number a).under "0" <*> (number b).under "1"
  | some xs => fail (.tooManyItems 2 xs.length)

/-- A seed: a whole number or a text stays what it is. -/
def seed : Value → Validated Seed
  | .int i => valid (.whole i)
  | .str s => valid (.text s)
  | v =>
    (((integer v).map Seed.whole).under "int").orElse (((string v).map Seed.text).under "str")

/-- A refresh policy: a flag, one of three exact words, or what counts as a flag. -/
def refresh : Value → Validated Refresh
  | .bool b => valid (.flag b)
  | .str "true" => valid (.flagText true)
  | .str "false" => valid (.flagText false)
  | .str "wait_for" => valid .waitFor
  | v =>
    (((boolean v).map Refresh.flag).under "bool").orElse
      ((fail (.notAmong ["true", "false", "wait_for"])).under
        "literal['true','false','wait_for']")

/-- The entries of a mapping that stands for a record. -/
def recordEntries (typeName : String) : Value → Validated Entries
  | .object es => valid es
  | _ => fail (.notRecord typeName)

/-- A geographic box. -/
def geoBox (es : Entries) : Validated (GeoBox Value) :=
  GeoBox.mk <$> required es "field" string <*> required es "topLeft" any <*>
    required es "bottomRight" any <* onlyKeys ["field", "topLeft", "bottomRight"] es

/-- A geographic point and a distance. -/
def geoPoint (es : Entries) : Validated GeoPoint :=
  (fun field distance (p : Float × Float) => ⟨field, distance, p.1, p.2⟩) <$>
    required es "field" string <*> required es "distance" distance <*>
    required es "geoPoint" coordinates <* onlyKeys ["field", "distance", "geoPoint"] es

/-- A geographic box, typed already or as a mapping. -/
def geoBoxValue : Value → Validated (GeoBox Value)
  | .geoBox b => valid b
  | v => (recordEntries "GeoBoxFilter" v).andThen geoBox

/-- A geographic point and a distance, typed already or as a mapping. -/
def geoPointValue : Value → Validated GeoPoint
  | .geoPoint p => valid p
  | v => (recordEntries "GeoPointFilter" v).andThen geoPoint

/-- The geographic filters. -/
def geoFilters (es : Entries) : Validated (GeoFilters Value) :=
  GeoFilters.mk <$> optional es "filterGeoBox" none (nullable geoBoxValue) <*>
    optional es "filterGeoPoint" none (nullable geoPointValue) <*
    onlyKeys ["filterGeoBox", "filterGeoPoint"] es

/-- The geographic filters, typed already or as a mapping. -/
def geoFiltersValue : Value → Validated (GeoFilters Value)
  | .geoFilters f => valid f
  | v => (recordEntries "FilterOptions" v).andThen geoFilters

/-- A random score. -/
def randomScore (es : Entries) : Validated RandomScore :=
  RandomScore.mk <$> required es "column" string <*> required es "seed" seed <*
    onlyKeys ["column", "seed"] es

/-- A random score, typed already or as a mapping. -/
def randomScoreValue : Value → Validated RandomScore
  | .randomScore r => valid r
  | v => (recordEntries "RandomScore" v).andThen randomScore

/-- What only requests that write may ask for. -/
def writeControl (es : Entries) : Validated WriteControl :=
  WriteControl.mk <$> optional es "refresh" none (nullable refresh)

end Validate

namespace Options

/-- The keys of the options of every request. -/
def sharedKeys : List String :=
  ["limit", "skip", "sort", "search_after", "prev_search_after", "minScore", "filters",
    "highlights", "random_score", "multiple", "searchOptions"]

/-- The keys of options; requests that write know one more. -/
def keys (write : Bool) : List String :=
  if write then sharedKeys ++ ["refresh"] else sharedKeys

/-- Options read from the entries of a mapping, those of a request that may write when `write`. -/
def ofEntries (write : Bool) (es : Entries) : Validated (Options Value) :=
  let field {α : Type} (key : String) (check : Value → Validated α) : Validated (Option α) :=
    optional es key none (Validate.nullable check)
  Options.mk <$> field "limit" Validate.natural <*> field "skip" Validate.natural <*>
    field "sort" Validate.mapping <*> field "search_after" Validate.list <*>
    field "prev_search_after" Validate.any <*> field "minScore" Validate.number <*>
    field "filters" Validate.geoFiltersValue <*> field "highlights" Validate.mapping <*>
    field "random_score" Validate.randomScoreValue <*> field "multiple" Validate.any <*>
    field "searchOptions" Validate.any <*>
    (if write then (Validate.writeControl es).map some else valid none) <*
    onlyKeys (keys write) es

end Options

end SearchRequest
