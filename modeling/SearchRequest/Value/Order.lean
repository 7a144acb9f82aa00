import SearchRequest.Value.Rows
/-
The order of values. Texts, bytes and numbers are each ordered among themselves. Sequences of one
kind are ordered by the first items that differ, and a set comes before the sets that hold all of it
and more. Other values have no order among each other, so they cannot be sorted.
-/
namespace SearchRequest

/-- Whether a number is below another one, both taken apart. No number is below or above one that is
none. -/
def Decimal.Parts.below : Decimal.Parts → Decimal.Parts → Bool
  | .nan, _ | _, .nan => false
  | .infinite negative, .infinite negative' => negative && !negative'
  | .infinite negative, .finite .. => negative
  | .finite .., .infinite negative' => !negative'
  | .finite negative m q, .finite negative' m' q' =>
    let signed (negative : Bool) (n : Nat) : Int := if negative then -n else n
    signed negative (m * Nat.pow 2 (q - q').toNat) < signed negative' (m' * Nat.pow 2 (q' - q).toNat)

namespace Outline

/-- A number taken apart. -/
def parts? : Outline → Option Decimal.Parts
  | bool b => some (.finite false (if b then 1 else 0) 0)
  | int i => some (.finite (i < 0) i.natAbs 0)
  | float x => some (Decimal.parts x)
  | _ => none

/-- Whether a text or a number comes before another one. -/
def beforeAtom? (a b : Outline) : Option Bool :=
  match a.text?, b.text?, a.parts?, b.parts? with
  | some s, some t, _, _ => some (s < t)
  | _, _, some x, some y => some (x.below y)
  | _, _, _, _ => none

mutual

/-- Whether an outline comes before another one, if the two have an order. -/
def before? : Outline → Outline → Option Bool
  | bytes x, bytes y => some (x < y)
  | seq k xs, seq k' ys =>
    if !Brackets.comparable k k' then none
    else if Brackets.unordered k then some (xs.length < ys.length && eachIn xs ys)
    else beforeItems? xs ys
  | a, b => beforeAtom? a b

/-- Whether the items of a sequence come before those of another one. -/
def beforeItems? : List Outline → List Outline → Option Bool
  | [], ys => some (!ys.isEmpty)
  | _ :: _, [] => some false
  | x :: xs, y :: ys => if same x y then beforeItems? xs ys else before? x y

end

end Outline

namespace Value

/-- Whether a value comes before another one, if the two have an order. -/
def before? (a b : Value) : Option Bool :=
  a.outline.before? b.outline

/-- Values in descending order with one more put in, in front of those that it is not before. -/
def insertDescending? (v : Value) : List Value → Option (List Value)
  | [] => some [v]
  | w :: ws =>
    match v.before? w with
    | some true => (insertDescending? v ws).map (w :: ·)
    | some false => some (v :: w :: ws)
    | none => none

/-- Values in descending order with more of them put in, one after the other. -/
def sortDescending? : List Value → List Value → Option (List Value)
  | sorted, [] => some sorted
  | sorted, v :: vs => (insertDescending? v sorted).bind fun sorted => sortDescending? sorted vs

/-- Values in ascending order; those that are not before each other keep their places. -/
def sort? (vs : List Value) : Option (List Value) :=
  (sortDescending? [] vs).map List.reverse

/-- Nothing is lost or gained by putting a value in. -/
theorem insertDescending?_perm {v : Value} {vs ws : List Value}
    (h : insertDescending? v vs = some ws) : ws.Perm (v :: vs) := by
  induction vs generalizing ws with
  | nil =>
    simp only [insertDescending?, Option.some.injEq] at h
    rw [← h]
  | cons w vs ih =>
    rw [insertDescending?] at h
    split at h
    · obtain ⟨us, hu, rfl⟩ := Option.map_eq_some_iff.1 h
      exact ((ih hu).cons w).trans (.swap ..)
    · simp only [Option.some.injEq] at h
      rw [← h]
    · simp at h

/-- Nothing is lost or gained by sorting. -/
theorem sort?_perm {vs ws : List Value} (h : sort? vs = some ws) : ws.Perm vs := by
  have key : ∀ (vs acc us : List Value), sortDescending? acc vs = some us → us.Perm (vs ++ acc) := by
    intro vs
    induction vs with
    | nil =>
      intro acc us h
      simp only [sortDescending?, Option.some.injEq] at h
      rw [← h, List.nil_append]
    | cons v vs ih =>
      intro acc us h
      obtain ⟨acc', ha, hs⟩ := Option.bind_eq_some_iff.1 h
      exact (ih acc' us hs).trans
        (((insertDescending?_perm ha).append_left vs).trans List.perm_middle)
  obtain ⟨us, hu, rfl⟩ := Option.map_eq_some_iff.1 h
  have := key vs [] us hu
  rw [List.append_nil] at this
  exact us.reverse_perm.trans this

/-- Texts have an order among each other. -/
theorem before?_str (s t : String) : (str s).before? (str t) = some (decide (s < t)) := rfl

theorem exists_insertDescending? {vs : List Value} (h : ∀ v ∈ vs, ∃ s, v = str s) (s : String) :
    ∃ ws, insertDescending? (str s) vs = some ws := by
  induction vs with
  | nil => exact ⟨_, rfl⟩
  | cons v vs ih =>
    obtain ⟨⟨t, rfl⟩, hvs⟩ := List.forall_mem_cons.1 h
    obtain ⟨ws, hws⟩ := ih hvs
    rw [insertDescending?, before?_str, hws]
    cases decide (s < t) with
    | true => exact ⟨_, rfl⟩
    | false => exact ⟨_, rfl⟩

/-- Texts can be sorted. -/
theorem exists_sort? {vs : List Value} (h : ∀ v ∈ vs, ∃ s, v = str s) :
    ∃ ws, sort? vs = some ws := by
  have key : ∀ vs acc : List Value, (∀ v ∈ vs, ∃ s, v = str s) → (∀ v ∈ acc, ∃ s, v = str s) →
      ∃ ws, sortDescending? acc vs = some ws := by
    intro vs
    induction vs with
    | nil => exact fun acc _ _ => ⟨acc, rfl⟩
    | cons v vs ih =>
      intro acc hvs hacc
      obtain ⟨⟨s, rfl⟩, hrest⟩ := List.forall_mem_cons.1 hvs
      obtain ⟨acc', hacc'⟩ := exists_insertDescending? hacc s
      rw [sortDescending?, hacc', Option.bind_some]
      refine ih acc' hrest fun v hv => ?_
      rcases List.mem_cons.1 ((insertDescending?_perm hacc').mem_iff.1 hv) with rfl | hv
      · exact ⟨s, rfl⟩
      · exact hacc v hv
  obtain ⟨ws, hws⟩ := key vs [] h (List.forall_mem_nil _)
  exact ⟨ws.reverse, by rw [sort?, hws, Option.map_some]⟩

end Value

end SearchRequest
