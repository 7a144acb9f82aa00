import Mathlib.Data.List.Sort
import SearchRequest.Value.Basic
/-
Places in a value, and lists that account for what is due at places. A list is `Listed` when it holds
one item for everything that is due somewhere, in the order of the document, and nothing else. Such
lists are put together as the value is gone through: what is due in one part comes before what is
due in the next.
-/
namespace SearchRequest

/-- A place in a value: which item of a list or which entry of a mapping to go on in, from the outside
in. The order of places is that of the document: a place comes before those inside it, and those
inside one item before those inside the next. -/
abbrev Place := List Nat

/-- The value at a place. There are no places inside a typed value. -/
def Value.at? : Value → Place → Option Value
  | v, [] => some v
  | .list vs, i :: p | .tuple vs, i :: p => vs[i]?.bind fun v => v.at? p
  | .object es, i :: p => es[i]?.bind fun e => e.2.at? p
  | _, _ :: _ => none

theorem Value.at?_append (v : Value) (p q : Place) :
    v.at? (p ++ q) = (v.at? p).bind fun u => u.at? q := by
  induction p generalizing v with
  | nil => rfl
  | cons i p ih =>
    cases v with
    | list vs | tuple vs =>
      simp only [List.cons_append, at?, Option.bind_assoc, ih]
    | object es => simp only [List.cons_append, at?, Option.bind_assoc, ih]
    | _ => rfl

/-- There is nothing inside a typed value. -/
theorem Value.at?_typed {v : Value} (h : v.isTyped = true) (i : Nat) (p : Place) :
    v.at? (i :: p) = none := by
  cases v <;> first | rfl | cases h

/-- A list holds one item for everything that is due at some place, in the order of the places, and
nothing else. At no place is more than one item due. -/
def Listed {α : Type} (due : Place → α → Prop) (items : List α) : Prop :=
  ∃ sites : List (Place × α), sites.map (·.2) = items ∧ sites.Pairwise (fun a b => a.1 < b.1) ∧
    ∀ p a, (p, a) ∈ sites ↔ due p a

namespace Listed

variable {α : Type} {due due' : Place → α → Prop} {items items' : List α}

theorem nothing (h : ∀ p a, ¬ due p a) : Listed due [] :=
  ⟨[], rfl, .nil, fun p a => iff_of_false List.not_mem_nil (h p a)⟩

theorem congr (h : Listed due items) (hdue : ∀ p a, due' p a ↔ due p a) : Listed due' items := by
  obtain ⟨sites, hitems, horder, hmem⟩ := h
  exact ⟨sites, hitems, horder, fun p a => (hmem p a).trans (hdue p a).symm⟩

/-- What is due determines the list. -/
theorem unique (h : Listed due items) (h' : Listed due items') : items = items' := by
  obtain ⟨sites, rfl, horder, hmem⟩ := h
  obtain ⟨sites', rfl, horder', hmem'⟩ := h'
  have : Std.Irrefl fun a b : Place × α => a.1 < b.1 := ⟨fun a => List.lt_irrefl a.1⟩
  have : Std.Antisymm fun a b : Place × α => a.1 < b.1 :=
    ⟨fun _ _ hab hba => absurd hba (List.lt_asymm hab)⟩
  have hsites : sites = sites' :=
    horder.eq_of_mem_iff horder' fun site => (hmem _ _).trans (hmem' _ _).symm
  rw [hsites]

/-- One item that is due at the outermost place. -/
theorem outermost (a : α) : Listed (fun p b => p = [] ∧ b = a) [a] :=
  ⟨[([], a)], rfl, List.pairwise_singleton _ _, by simp⟩

/-- What is due inside an item of the value, seen from the outside. -/
theorem inside (h : Listed due items) (i : Nat) :
    Listed (fun p a => ∃ q, p = i :: q ∧ due q a) items := by
  obtain ⟨sites, hitems, horder, hmem⟩ := h
  refine ⟨sites.map fun site => (i :: site.1, site.2), ?_, ?_, fun p a => ?_⟩
  · rw [List.map_map]
    exact hitems
  · rw [List.pairwise_map]
    exact horder.imp fun hlt => List.cons_lt_cons_iff.2 (.inr ⟨rfl, hlt⟩)
  · simp only [List.mem_map, Prod.mk.injEq, Prod.exists]
    constructor
    · rintro ⟨q, b, hq, rfl, rfl⟩
      exact ⟨q, rfl, (hmem q b).1 hq⟩
    · rintro ⟨q, rfl, hq⟩
      exact ⟨q, a, (hmem q a).2 hq, rfl, rfl⟩

/-- What is due in one part in front of what is due in a later one. -/
theorem append (h : Listed due items) (h' : Listed due' items')
    (hlt : ∀ {p a q b}, due p a → due' q b → p < q) :
    Listed (fun p a => due p a ∨ due' p a) (items ++ items') := by
  obtain ⟨sites, hitems, horder, hmem⟩ := h
  obtain ⟨sites', hitems', horder', hmem'⟩ := h'
  refine ⟨sites ++ sites', ?_, ?_, fun p a => ?_⟩
  · rw [List.map_append, hitems, hitems']
  · refine List.pairwise_append.2 ⟨horder, horder', fun a ha b hb => ?_⟩
    exact hlt ((hmem a.1 a.2).1 ha) ((hmem' b.1 b.2).1 hb)
  · rw [List.mem_append, hmem, hmem']

end Listed

end SearchRequest
