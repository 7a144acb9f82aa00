/-
The options of a request, after validation. Free-form values (sort payloads, highlights, caller
values) are of a type `V`, so that a value of the request language can itself hold options.
-/
namespace SearchRequest

/-- A geographic box around `field`, given by two corners. -/
structure GeoBox (V : Type) where
  field : String
  topLeft : V
  bottomRight : V

/-- A distance, kept as it was written: a text with a unit, a whole number or a real number. -/
inductive Distance
  | text (s : String)
  | whole (i : Int)
  | real (x : Float)

/-- All points of `field` within a distance of one point. -/
structure GeoPoint where
  field : String
  distance : Distance
  lat : Float
  lon : Float

/-- The geographic filters of a request. -/
structure GeoFilters (V : Type) where
  box : Option (GeoBox V)
  point : Option GeoPoint

/-- The seed of a random score, kept as it was written. -/
inductive Seed
  | whole (i : Int)
  | text (s : String)

/-- A random score computed from a column and a seed. -/
structure RandomScore where
  column : String
  seed : Seed

/-- When a write becomes visible: a flag, one of the two flags written as text, or on the next
refresh. -/
inductive Refresh
  | flag (b : Bool)
  | flagText (b : Bool)
  | waitFor

/-- What only requests that write may ask for. -/
structure WriteControl where
  refresh : Option Refresh

/-- The options of a request. `write` is present exactly on the options of a request that may
write. -/
structure Options (V : Type) where
  limit : Option Nat := none
  skip : Option Nat := none
  sort : Option (List (String × V)) := none
  searchAfter : Option (List V) := none
  prevSearchAfter : Option V := none
  minScore : Option Float := none
  filters : Option (GeoFilters V) := none
  highlights : Option (List (String × V)) := none
  randomScore : Option RandomScore := none
  multiple : Option V := none
  searchOptions : Option V := none
  write : Option WriteControl := none

end SearchRequest
