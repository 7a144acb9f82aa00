import SearchRequest.Validation.Failure
import SearchRequest.Entries
/-
Reading into a typed form with all failures collected. Parts that are read side by side each add
their failures, in the order in which they are read.
-/
namespace SearchRequest

/-- A value that was read, or the failures met in reading it, of which there is at least one. -/
inductive Validated (α : Type)
  | valid (a : α)
  | invalid (first : Failure) (more : List Failure)

namespace Validated

variable {α β : Type}

/-- A single failure at this place. -/
def fail (reason : Reason) : Validated α :=
  invalid ⟨[], reason⟩ []

/-- The failures; a value that was read has none. -/
def failures : Validated α → List Failure
  | valid _ => []
  | invalid first more => first :: more

/-- The value, when it was read. -/
def toOption : Validated α → Option α
  | valid a => some a
  | invalid .. => none

/-- The value changed by a function. -/
def map (f : α → β) : Validated α → Validated β
  | valid a => valid (f a)
  | invalid first more => invalid first more

/-- A function and its argument read side by side. -/
def apply : Validated (α → β) → Validated α → Validated β
  | valid f, valid a => valid (f a)
  | valid _, invalid first more => invalid first more
  | invalid first more, b => invalid first (more ++ b.failures)

/-- A second reading that needs the result of the first; it is not tried when that failed. -/
def andThen (v : Validated α) (f : α → Validated β) : Validated β :=
  match v with
  | valid a => f a
  | invalid first more => invalid first more

/-- All failures seen from one level further out. -/
def under (part : String) : Validated α → Validated α
  | valid a => valid a
  | invalid first more => invalid (first.under part) (more.map (Failure.under part))

instance : Applicative Validated where
  pure := valid
  map := map
  seq f a := apply f (a ())

/-- The failures of two readings side by side are those of the first, then those of the second. -/
@[simp] theorem failures_apply (f : Validated (α → β)) (a : Validated α) :
    (apply f a).failures = f.failures ++ a.failures := by
  cases f <;> cases a <;> simp [apply, failures]

@[simp] theorem failures_map (f : α → β) (a : Validated α) : (map f a).failures = a.failures := by
  cases a <;> rfl

theorem failures_eq_nil_iff (v : Validated α) : v.failures = [] ↔ ∃ a, v = valid a := by
  cases v <;> simp [failures]

/-- Items read one by one, each failure under the position of its item. -/
def eachFrom (check : α → Validated β) (position : Nat) : List α → Validated (List β)
  | [] => valid []
  | a :: as =>
    apply (map List.cons ((check a).under (toString position))) (eachFrom check (position + 1) as)

/-- Items read one by one. -/
def each (check : α → Validated β) (as : List α) : Validated (List β) :=
  eachFrom check 0 as

/-- One of two readings of the same value: the first that succeeds; when neither does, the
failures of both. -/
def orElse (v w : Validated α) : Validated α :=
  match v, w with
  | valid a, _ => valid a
  | _, valid a => valid a
  | invalid first more, invalid first' more' => invalid first (more ++ first' :: more')

variable {V : Type}

/-- A field that must be present. -/
def required (es : List (String × V)) (key : String) (check : V → Validated β) : Validated β :=
  match Entries.find? key es with
  | some v => (check v).under key
  | none => invalid ⟨[key], .missing⟩ []

/-- A field with a default for its absence. -/
def optional (es : List (String × V)) (key : String) (default : β) (check : V → Validated β) :
    Validated β :=
  match Entries.find? key es with
  | some v => (check v).under key
  | none => valid default

/-- A failure for every key that is none of those known, in order. -/
def onlyKeys (known : List String) (es : List (String × V)) : Validated Unit :=
  match es.filterMap fun e => if known.contains e.1 then none else some ⟨[e.1], .unknownKey⟩ with
  | [] => valid ()
  | first :: more => invalid first more

end Validated

end SearchRequest
