import SearchRequest.Outcome
import SearchRequest.Value.Parts
import SearchRequest.Log.Level
/-
What compiling registers beside the query it produces: filter clauses, a scoring function, caller
metadata and log records. `Effects` is what one compile adds; a `Registry` holds what has been
added so far until it is taken out.
-/
namespace SearchRequest

/-- What a compile adds, in order. -/
@[ext] structure Effects where
  clauses : List Value := []
  /-- The last scoring function, if any was registered. -/
  function : Option Entries := none
  stashed : Entries := []
  log : List LogRecord := []

namespace Effects

instance : EmptyCollection Effects := ⟨{}⟩

/-- The effects of one compile followed by another. -/
def append (a b : Effects) : Effects where
  clauses := a.clauses ++ b.clauses
  function := b.function.or a.function
  stashed := a.stashed ++ b.stashed
  log := a.log ++ b.log

instance : Append Effects := ⟨append⟩

/-- Log records alone. -/
def ofLog (records : List LogRecord) : Effects :=
  { log := records }

@[simp] theorem clauses_append (a b : Effects) : (a ++ b).clauses = a.clauses ++ b.clauses := rfl
@[simp] theorem function_append (a b : Effects) : (a ++ b).function = b.function.or a.function := rfl
@[simp] theorem stashed_append (a b : Effects) : (a ++ b).stashed = a.stashed ++ b.stashed := rfl
@[simp] theorem log_append (a b : Effects) : (a ++ b).log = a.log ++ b.log := rfl

@[simp] theorem clauses_empty : (∅ : Effects).clauses = [] := rfl
@[simp] theorem function_empty : (∅ : Effects).function = none := rfl
@[simp] theorem stashed_empty : (∅ : Effects).stashed = [] := rfl
@[simp] theorem log_empty : (∅ : Effects).log = [] := rfl

@[simp] theorem append_empty (a : Effects) : a ++ (∅ : Effects) = a := by
  ext1 <;> simp

@[simp] theorem empty_append (a : Effects) : (∅ : Effects) ++ a = a := by
  ext1 <;> simp

theorem append_assoc (a b c : Effects) : a ++ b ++ c = a ++ (b ++ c) := by
  ext1 <;> simp [Option.or_assoc]

end Effects

/-- A compile: a result and what it adds. -/
abbrev Compiled (α : Type) := Outcome Effects α

/-- What has been registered and not yet taken out. -/
structure Registry where
  clauses : List Value := []
  function : Rows := []
  stash : Entries := []

namespace Registry

/-- The registry after the effects of a compile. -/
def absorb (r : Registry) (e : Effects) : Registry where
  clauses := r.clauses ++ e.clauses
  function := match e.function with
    | some f => Rows.ofEntries f
    | none => r.function
  stash := Entries.overlay r.stash e.stashed

/-- The registry with one more filter clause. -/
def addClause (r : Registry) (clause : Value) : Registry :=
  { r with clauses := r.clauses ++ [clause] }

/-- The registry with the scoring function that the value is read as; the last one counts. -/
def setFunction (r : Registry) (function : Value) : Except Misuse Registry :=
  function.rows.map fun rows => { r with function := rows }

/-- The registry with more metadata; later values replace earlier ones. -/
def stashAll (r : Registry) (values : Entries) : Registry :=
  { r with stash := Entries.overlay r.stash values }

/-- The clauses taken out, and the registry without them. -/
def takeClauses (r : Registry) : List Value × Registry :=
  (r.clauses, { r with clauses := [] })

/-- The scoring function taken out, and the registry without it. -/
def takeFunction (r : Registry) : Rows × Registry :=
  (r.function, { r with function := [] })

@[simp] theorem absorb_empty (r : Registry) : r.absorb ∅ = r := by
  simp [absorb]

/-- Absorbing two effects one after the other is absorbing them joined. -/
theorem absorb_append (r : Registry) (a b : Effects) :
    r.absorb (a ++ b) = (r.absorb a).absorb b := by
  cases hb : b.function <;> simp [absorb, hb, Entries.overlay_append]

end Registry

/-- Names that metadata cannot have. -/
def reservedMetaNames : List String := ["self"]

/-- Metadata as it can be stashed: its names are texts, and none of them is reserved. -/
def stashable (rows : Rows) : Except Misuse Entries :=
  match Rows.entries? rows with
  | some es =>
    if es.any fun e => reservedMetaNames.contains e.1 then .error .kind else .ok es
  | none => .error .kind

end SearchRequest
