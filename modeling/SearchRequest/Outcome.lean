import SearchRequest.Error.Basic
/-
A result together with what happened on the way to it. The effects are kept when the result is an
error: what was registered or logged before a failure stays.
-/
namespace SearchRequest

/-- A result and the effects on the way to it. -/
structure Outcome (ω α : Type) where
  effects : ω
  result : Except Error α

namespace Outcome

variable {ω ω' α β : Type}

section
variable [EmptyCollection ω]

/-- A result without effects. -/
def of (a : α) : Outcome ω α :=
  ⟨∅, .ok a⟩

/-- A failure without effects. -/
def fail (e : Error) : Outcome ω α :=
  ⟨∅, .error e⟩

/-- A result or a failure without effects. -/
def ofExcept (r : Except Error α) : Outcome ω α :=
  ⟨∅, r⟩

end

/-- Effects alone. -/
def perform (w : ω) : Outcome ω Unit :=
  ⟨w, .ok ()⟩

/-- One outcome after another; after a failure nothing more happens. -/
def andThen [Append ω] (x : Outcome ω α) (f : α → Outcome ω β) : Outcome ω β :=
  match x.result with
  | .ok a => ⟨x.effects ++ (f a).effects, (f a).result⟩
  | .error e => ⟨x.effects, .error e⟩

instance [EmptyCollection ω] [Append ω] : Monad (Outcome ω) where
  pure := of
  bind := andThen

/-- The outcome with its effects changed by a function. -/
def mapEffects (f : ω → ω') (x : Outcome ω α) : Outcome ω' α :=
  ⟨f x.effects, x.result⟩

@[simp] theorem pure_eq [EmptyCollection ω] [Append ω] (a : α) :
    (pure a : Outcome ω α) = ⟨∅, .ok a⟩ := rfl

theorem bind_ok [EmptyCollection ω] [Append ω] {x : Outcome ω α} {a : α}
    (h : x.result = .ok a) (f : α → Outcome ω β) :
    x >>= f = ⟨x.effects ++ (f a).effects, (f a).result⟩ := by
  simp [bind, andThen, h]

theorem bind_error [EmptyCollection ω] [Append ω] {x : Outcome ω α} {e : Error}
    (h : x.result = .error e) (f : α → Outcome ω β) :
    x >>= f = ⟨x.effects, .error e⟩ := by
  simp [bind, andThen, h]

end Outcome

end SearchRequest
