import SearchRequest.Registry
/-
Outcomes taken apart: a sequence of outcomes has a result exactly when each of them has one, and
then its effects are theirs, one after the other. Sequences of compiles obey the monad laws.
-/
namespace SearchRequest

theorem exists_ok_of_isOk {α ε : Type} {x : Except ε α} (h : x.isOk = true) : ∃ a, x = .ok a := by
  cases x with
  | ok a => exact ⟨a, rfl⟩
  | error e => cases h

theorem map_error_iff {α β ε : Type} {f : α → β} {x : Except ε α} {e : ε} :
    x.map f = .error e ↔ x = .error e := by
  cases x <;> simp [Except.map]

theorem map_ok_iff {α β ε : Type} {f : α → β} {x : Except ε α} {b : β} :
    x.map f = .ok b ↔ ∃ a, x = .ok a ∧ f a = b := by
  cases x <;> simp [Except.map]

namespace Outcome

variable {ω ω' α β : Type}

section
variable [EmptyCollection ω]

@[simp] theorem result_of (a : α) : (of a : Outcome ω α).result = .ok a := rfl
@[simp] theorem effects_of (a : α) : (of a : Outcome ω α).effects = ∅ := rfl
@[simp] theorem result_fail (e : Error) : (fail e : Outcome ω α).result = .error e := rfl
@[simp] theorem effects_fail (e : Error) : (fail e : Outcome ω α).effects = ∅ := rfl

@[simp] theorem result_ofExcept (r : Except Error α) : (ofExcept r : Outcome ω α).result = r := rfl

@[simp] theorem effects_ofExcept (r : Except Error α) :
    (ofExcept r : Outcome ω α).effects = ∅ := rfl

end

@[simp] theorem result_perform (w : ω) : (perform w).result = .ok () := rfl
@[simp] theorem effects_perform (w : ω) : (perform w).effects = w := rfl

@[simp] theorem result_mapEffects (f : ω → ω') (x : Outcome ω α) :
    (x.mapEffects f).result = x.result := rfl

@[simp] theorem effects_mapEffects (f : ω → ω') (x : Outcome ω α) :
    (x.mapEffects f).effects = f x.effects := rfl

section
variable [EmptyCollection ω] [Append ω]

theorem result_bind_ok_iff {x : Outcome ω α} {f : α → Outcome ω β} {b : β} :
    (x >>= f).result = .ok b ↔ ∃ a, x.result = .ok a ∧ (f a).result = .ok b := by
  constructor
  · intro h
    cases hx : x.result with
    | ok a => exact ⟨a, rfl, by simpa [bind_ok hx] using h⟩
    | error e => simp [bind_error hx] at h
  · rintro ⟨a, ha, hb⟩
    rw [bind_ok ha]
    exact hb

/-- The effects of a sequence are those of its parts, as far as they run. -/
theorem effects_bind_ok {x : Outcome ω α} {a : α} (h : x.result = .ok a) (f : α → Outcome ω β) :
    (x >>= f).effects = x.effects ++ (f a).effects := by
  rw [bind_ok h]

end

instance : LawfulMonad (Outcome Effects) :=
  LawfulMonad.mk' _
    (fun ⟨w, r⟩ => by
      cases r with
      | ok a => exact congrArg (Outcome.mk · (.ok a)) (Effects.append_empty w)
      | error e => rfl)
    (fun a f => congrArg (Outcome.mk · (f a).result) (Effects.empty_append (f a).effects))
    (fun x f g => by
      cases hx : x.result with
      | ok a =>
        rw [bind_ok hx]
        cases hf : (f a).result with
        | ok b => rw [bind_ok (a := b) rfl, bind_ok hx, bind_ok hf, Effects.append_assoc]
        | error e => rw [bind_error (e := e) rfl, bind_ok hx, bind_error hf]
      | error e => rw [bind_error hx, bind_error (e := e) rfl, bind_error hx])

section
variable (x : Outcome Effects α) (f : α → β)

theorem effects_bind_pure : (x >>= fun a => pure (f a)).effects = x.effects := by
  cases hx : x.result with
  | ok a => rw [bind_ok hx, pure_eq, Effects.append_empty]
  | error e => rw [bind_error hx]

theorem result_bind_pure : (x >>= fun a => pure (f a)).result = x.result.map f := by
  cases hx : x.result with
  | ok a => rw [bind_ok hx]; rfl
  | error e => rw [bind_error hx]; rfl

end

end Outcome

end SearchRequest
