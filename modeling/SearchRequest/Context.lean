import SearchRequest.Environment
import SearchRequest.Registry
import SearchRequest.Settings
/-
The context of a compile: the environment it depends on, and the registry that it fills. Several
compiles can share one context; what they register adds up.
-/
namespace SearchRequest

/-- An environment from settings and what replaces them. -/
def Settings.environment (s : Settings) (resolver : Option KeywordResolver)
    (bypass allowIdSort : Option Bool) (innerHitsSize : Option Int) : Environment where
  resolver
  bypass := bypass.getD s.bypassMapValidation
  allowIdSort := allowIdSort.getD s.allowIdSort
  innerHitsSize := innerHitsSize.getD s.innerHitsDefaultSize

/-- The last name of keyword forms: a given one that is not empty, or else the setting. -/
def Settings.suffix (s : Settings) (given : Option String) : String :=
  (given.filter (!·.isEmpty)).getD s.keywordSuffix

/-- An environment and what has been registered in it. -/
structure Context where
  environment : Environment
  registry : Registry := {}

namespace Context

/-- Whether a filter clause is held. -/
def hasClauses (c : Context) : Bool :=
  !c.registry.clauses.isEmpty

/-- Whether a scoring function is held. -/
def hasFunction (c : Context) : Bool :=
  !c.registry.function.isEmpty

/-- The context in words. -/
def display (c : Context) : String :=
  let flag (b : Bool) : String := (Value.bool b).display
  "<CompileContext: bypass_map_validation=" ++ flag c.environment.bypass ++
    " allow_id_sort=" ++ flag c.environment.allowIdSort ++
    " filters=" ++ toString c.registry.clauses.length ++
    " function_score=" ++ flag c.hasFunction ++ ">"

/-- The context after a compile, whether it failed or not. -/
def after {α : Type} (c : Context) (compiled : Compiled α) : Context :=
  { c with registry := c.registry.absorb compiled.effects }

@[simp] theorem environment_after {α : Type} (c : Context) (compiled : Compiled α) :
    (c.after compiled).environment = c.environment := rfl

end Context

end SearchRequest
