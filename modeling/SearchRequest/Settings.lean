import SearchRequest.Validation.Scalar
import SearchRequest.Text.Case
/-
Settings with their defaults, read from values that are given and from an environment. Names match
in any case. A value that is given wins over the environment; unknown names do not matter.
-/
namespace SearchRequest

open Validated (valid)

/-- The settings. -/
structure Settings where
  bypassMapValidation : Bool := false
  allowIdSort : Bool := false
  keywordSuffix : String := "keyword"
  innerHitsDefaultSize : Int := 100
  aggsBucketSize : Int := 10000
  logLevel : String := "INFO"

namespace Settings

/-- Whether an entry has a name, in any case. -/
def isNamed (name : String) (e : String × Value) : Bool :=
  Text.lower e.1 == Text.lower name

/-- The value for a name: the one that is given under exactly this name, or else the first one that
is given, or else the last one in the environment. -/
def source? (env given : Entries) (name : String) : Option Value :=
  match Entries.find? name given with
  | some v => some v
  | none =>
    match List.find? (isNamed name) given with
    | some e => some e.2
    | none => (List.find? (isNamed name) env.reverse).map (·.2)

/-- A setting with its default. -/
def field {α : Type} (env given : Entries) (name : String) (default : α)
    (check : Value → Validated α) : Validated α :=
  match source? env given name with
  | some v => (check v).under name
  | none => valid default

/-- The settings from an environment and given values. -/
def read (env given : Entries) : Validated Settings :=
  let defaults : Settings := {}
  Settings.mk <$>
    field env given "BYPASS_MAP_VALIDATION" defaults.bypassMapValidation Validate.boolean <*>
    field env given "ALLOW_ID_SORT" defaults.allowIdSort Validate.boolean <*>
    field env given "KEYWORD_SUFFIX" defaults.keywordSuffix Validate.string <*>
    field env given "INNER_HITS_DEFAULT_SIZE" defaults.innerHitsDefaultSize Validate.integer <*>
    field env given "AGGS_BUCKET_SIZE" defaults.aggsBucketSize Validate.integer <*>
    field env given "LOG_LEVEL" defaults.logLevel Validate.string

/-- The settings as a mapping. -/
def toValue (s : Settings) : Value :=
  .object
    [("BYPASS_MAP_VALIDATION", .bool s.bypassMapValidation),
      ("ALLOW_ID_SORT", .bool s.allowIdSort), ("KEYWORD_SUFFIX", .str s.keywordSuffix),
      ("INNER_HITS_DEFAULT_SIZE", .int s.innerHitsDefaultSize),
      ("AGGS_BUCKET_SIZE", .int s.aggsBucketSize), ("LOG_LEVEL", .str s.logLevel)]

end Settings

end SearchRequest
