import SearchRequest.Proofs.Grammar
import SearchRequest.Proofs.Places
/-
The way a value is read as a tree. `Reading.Step` is the grammar once more, as steps from one part of
a document to a part inside it: which part is read as what, and that an item is gone into only when
everything in front of it can be read. `Reads` is a sequence of such steps, from a value to a mapping
in it that is read as a tree.

A step is determined by where it goes (`Step.unique`), so what is read at a place does not depend on
the way there. Nothing is read as a tree below a connective that is ignored, in the place of a branch,
or inside a typed value (`Reads.not_behind`, `Reads.not_branch`, `Reads.not_typed`).
-/
namespace SearchRequest

namespace Reading

open Grammar

/-- A part of a document, with what it is read as. -/
inductive Part
  | tree (v : Value)
  | condition (v : Value)
  /-- What stands under a field. -/
  | operand (field : String) (v : Value)
  /-- What stands under a verb under a field. -/
  | payload (field : String) (verb : Verb) (v : Value)
  | conditions (v : Value)
  | branches (v : Value)
  | branch (v : Value)

/-- The part without what it is read as. -/
def Part.value : Part → Value
  | tree v | condition v | operand _ v | payload _ _ v | conditions v | branches v | branch v => v

/-- An item is reached when every item in front of it passes. -/
structure Reached {α : Type} (passes : α → Prop) (items : List α) (i : Nat) (a : α) : Prop where
  item : items[i]? = some a
  before : ∀ b ∈ items.take i, passes b

/-- What is asked of the entries under a verb, beside the sub-tree, before the sub-tree is read. -/
inductive Opens (field : String) (es : Entries) : Verb → Prop
  | group {clause : Clause} (h : clause.word = field) : Opens field es .group
  | nested {negated : Bool} {mode : String} (hmode : HoldsText es "score_mode" mode) :
      Opens field es (.nested negated)
  | innerNested {mode : String} {ignore : Bool} (hmode : HoldsText es "score_mode" mode)
      (hignore : Validate.boolean ((Entries.find? "ignore_unmapped" es).getD (.bool false)) =
        .valid ignore) : Opens field es .innerNested

/-- One step of reading: from a part into its item or entry at a position. -/
inductive Step : Part → Nat → Part → Prop
  /-- Of a tree with connectives only what stands under the first one is read. -/
  | all {key : String} {v : Value} {rest : Entries} (hkey : key = "and")
      (hrest : ∀ key ∈ Entries.keys rest, key = "and" ∨ key = "or") :
      Step (.tree (.object ((key, v) :: rest))) 0 (.conditions v)
  | any {key : String} {v : Value} {rest : Entries} (hkey : key = "or")
      (hrest : ∀ key ∈ Entries.keys rest, key = "and" ∨ key = "or") :
      Step (.tree (.object ((key, v) :: rest))) 0 (.branches v)
  | only {field : String} {v : Value} (hand : field ≠ "and") (hor : field ≠ "or") :
      Step (.tree (.object [(field, v)])) 0 (.operand field v)
  | condition {field : String} {v : Value} :
      Step (.condition (.object [(field, v)])) 0 (.operand field v)
  | verb {field word : String} {verb : Verb} {v : Value} (hfield : field ≠ multiMatchField)
      (hword : verb.word = word) : Step (.operand field (.object [(word, v)])) 0 (.payload field verb v)
  /-- The sub-tree is the first entry under its key. -/
  | wheres {field : String} {verb : Verb} {es : Entries} {i : Nat} {w : Value}
      (hopens : Opens field es verb) (hw : Reached (·.1 ≠ wheresKey) es i (wheresKey, w)) :
      Step (.payload field verb (.object es)) i (.tree w)
  | item {v u : Value} {vs : List Value} {i : Nat} (hv : v = .list vs ∨ v = .tuple vs)
      (hu : Reached (∃ c, IsCondition · c) vs i u) : Step (.conditions v) i (.condition u)
  | branch {v u : Value} {vs : List Value} {i : Nat} (hv : v = .list vs ∨ v = .tuple vs)
      (hu : Reached (∃ cs, IsBranch · cs) vs i u) : Step (.branches v) i (.branch u)
  | bare {v u : Value} {vs : List Value} {i : Nat} (hv : v = .list vs ∨ v = .tuple vs)
      (hu : Reached (∃ c, IsCondition · c) vs i u) : Step (.branch v) i (.condition u)
  /-- A branch that is a mapping is read entry by entry, whatever its keys are. -/
  | keyed {es : Entries} {i : Nat} {e : String × Value}
      (he : Reached (fun e => ∃ cs, AreConditions e.2 cs) es i e) :
      Step (.branch (.object es)) i (.conditions e.2)

/-- Steps of reading, one inside the other. -/
inductive Leads : Part → Place → Part → Prop
  | here (part : Part) : Leads part [] part
  | step {part next last : Part} {i : Nat} {p : Place} (h : Step part i next)
      (hlast : Leads next p last) : Leads part (i :: p) last

/-- In reading a value as a tree, a mapping at a place in it is read as a tree too. -/
def Reads (v : Value) (p : Place) (m : Entries) : Prop :=
  Leads (.tree v) p (.tree (.object m))

/-- Whether a part is of a shape in which something is read: a mapping or a list, where the grammar
has one. -/
def Part.isOpen : Part → Bool
  | tree (.object _) | condition (.object [_]) | operand _ (.object [_]) | payload _ _ (.object _)
  | conditions (.list _) | conditions (.tuple _) | branches (.list _) | branches (.tuple _)
  | branch (.object _) | branch (.list _) | branch (.tuple _) => true
  | _ => false

/-! ## Where reading goes -/

theorem Step.isOpen {part next : Part} {i : Nat} (h : Step part i next) : part.isOpen = true := by
  cases h with
  | item hv | branch hv | bare hv => rcases hv with rfl | rfl <;> rfl
  | _ => rfl

theorem Step.at?_eq {part next : Part} {i : Nat} (h : Step part i next) (p : Place) :
    part.value.at? (i :: p) = next.value.at? p := by
  cases h with
  | all | any | only | condition | verb => rfl
  | wheres _ hw =>
    simp only [Part.value, Value.at?, hw.item, Option.bind_some]
  | item hv hu | branch hv hu | bare hv hu =>
    rcases hv with rfl | rfl <;> simp only [Part.value, Value.at?, hu.item, Option.bind_some]
  | keyed he => simp only [Part.value, Value.at?, he.item, Option.bind_some]

/-- A part stands at the place that reading goes to. -/
theorem Leads.at?_eq {part last : Part} {p : Place} (h : Leads part p last) :
    part.value.at? p = some last.value := by
  induction h with
  | here part => cases part <;> rfl
  | step hstep _ ih => rw [hstep.at?_eq, ih]

/-- A step to a position is determined, by what is read there and by where it stands. -/
theorem Step.unique {part next next' : Part} {i : Nat} (h : Step part i next)
    (h' : Step part i next') : next = next' := by
  have hvalue : next.value = next'.value :=
    Option.some.inj ((h.at?_eq []).symm.trans (h'.at?_eq []))
  cases h with
  | all hand => cases h' with
    | all => rfl
    | any hor => exact absurd (hand.symm.trans hor) (by decide)
    | only hnand => exact absurd hand hnand
  | any hor => cases h' with
    | all hand => exact absurd (hand.symm.trans hor) (by decide)
    | any => rfl
    | only _ hnor => exact absurd hor hnor
  | only hnand hnor => cases h' with
    | all hand => exact absurd hand hnand
    | any hor => exact absurd hor hnor
    | only => rfl
  | condition => cases h' with
    | condition => rfl
  | verb _ hword => cases h' with
    | verb _ hword' => rw [Verb.word_injective (hword.trans hword'.symm)]
  | wheres => cases h' with
    | wheres => exact congrArg Part.tree hvalue
  | item => cases h' with
    | item => exact congrArg Part.condition hvalue
  | branch => cases h' with
    | branch => exact congrArg Part.branch hvalue
  | bare hv => cases h' with
    | bare => exact congrArg Part.condition hvalue
    | keyed => rcases hv with hv | hv <;> cases hv
  | keyed => cases h' with
    | bare hv => rcases hv with hv | hv <;> cases hv
    | keyed => exact congrArg Part.conditions hvalue

/-- What is read inside a place that is read is read from there. -/
theorem Leads.inside {part middle last : Part} {p q : Place} (h : Leads part p middle)
    (hlast : Leads part (p ++ q) last) : Leads middle q last := by
  induction h with
  | here => exact hlast
  | step hstep _ ih =>
    cases hlast with
    | step hstep' hlast =>
      rw [hstep'.unique hstep] at hlast
      exact ih hlast

/-- Below the outermost place a tree is read only from a sub-tree's entry. -/
theorem Leads.at_wheres {part last : Part} {p : Place} {m : Entries} (h : Leads part p last)
    (hlast : last = .tree (.object m)) (hp : p ≠ []) : ∃ q i es, p = q ++ [i] ∧
      part.value.at? q = some (.object es) ∧ es[i]? = some (wheresKey, .object m) := by
  induction h with
  | here => exact absurd rfl hp
  | @step _ _ _ i _ hstep hleads ih =>
    cases hleads with
    | here =>
      subst hlast
      cases hstep with
      | wheres _ hw => exact ⟨[], i, _, rfl, rfl, hw.item⟩
    | step hnext hleads =>
      obtain ⟨q, j, es, hq, hes, hitem⟩ := ih hlast (List.cons_ne_nil _ _)
      exact ⟨i :: q, j, es, by rw [hq, List.cons_append], by rw [hstep.at?_eq, hes], hitem⟩

/-- Nothing is read below a connective that is not the first entry of its tree. -/
theorem Reads.not_behind {v : Value} {p : Place} {m : Entries} (h : Reads v p m) (i : Nat)
    (q : Place) (m' : Entries) : ¬ Reads v (p ++ (i + 1) :: q) m' := by
  intro h'
  cases h.inside h' with
  | step hstep => cases hstep

/-- No branch is read as a tree. -/
theorem Reads.not_branch {v w : Value} {p : Place} {rest : Entries}
    (h : Reads v p (("or", w) :: rest)) (i : Nat) (m : Entries) : ¬ Reads v (p ++ [0, i]) m := by
  intro h'
  cases h.inside h' with
  | step hstep hlast =>
    cases hstep with
    | all hand => exact absurd hand (by decide)
    | any =>
      cases hlast with
      | step hstep hlast =>
        cases hstep with
        | branch => cases hlast
    | only _ hnor => exact hnor rfl

/-- Nothing is read at or inside a typed value. -/
theorem Reads.not_typed {v u : Value} {p : Place} (hp : v.at? p = some u) (hu : u.isTyped = true)
    (q : Place) (m : Entries) : ¬ Reads v (p ++ q) m := by
  intro h
  have hm : v.at? (p ++ q) = some (.object m) := h.at?_eq
  rw [Value.at?_append, hp, Option.bind_some] at hm
  cases q with
  | nil =>
    cases hm
    cases hu
  | cons i q =>
    rw [Value.at?_typed hu] at hm
    cases hm

/-! ## The steps of lists -/

theorem items_unique {v : Value} {vs vs' : List Value} (h : v = .list vs ∨ v = .tuple vs)
    (h' : v = .list vs' ∨ v = .tuple vs') : vs' = vs := by
  rcases h with rfl | rfl <;> rcases h' with h' | h' <;> cases h' <;> rfl

theorem step_conditions_iff {v : Value} {vs : List Value} (hv : v = .list vs ∨ v = .tuple vs)
    (i : Nat) (next : Part) : Step (.conditions v) i next ↔
      ∃ u, Reached (∃ c, IsCondition · c) vs i u ∧ next = .condition u := by
  constructor
  · intro h
    cases h with
    | item hv' hu => exact ⟨_, items_unique hv hv' ▸ hu, rfl⟩
  · rintro ⟨u, hu, rfl⟩
    exact .item hv hu

theorem step_branches_iff {v : Value} {vs : List Value} (hv : v = .list vs ∨ v = .tuple vs)
    (i : Nat) (next : Part) : Step (.branches v) i next ↔
      ∃ u, Reached (∃ cs, IsBranch · cs) vs i u ∧ next = .branch u := by
  constructor
  · intro h
    cases h with
    | branch hv' hu => exact ⟨_, items_unique hv hv' ▸ hu, rfl⟩
  · rintro ⟨u, hu, rfl⟩
    exact .branch hv hu

theorem step_bare_iff {v : Value} {vs : List Value} (hv : v = .list vs ∨ v = .tuple vs)
    (i : Nat) (next : Part) : Step (.branch v) i next ↔
      ∃ u, Reached (∃ c, IsCondition · c) vs i u ∧ next = .condition u := by
  constructor
  · intro h
    cases h with
    | bare hv' hu => exact ⟨_, items_unique hv hv' ▸ hu, rfl⟩
    | keyed => rcases hv with hv | hv <;> cases hv
  · rintro ⟨u, hu, rfl⟩
    exact .bare hv hu

theorem step_keyed_iff {es : Entries} (i : Nat) (next : Part) : Step (.branch (.object es)) i next ↔
    ∃ e, Reached (fun e => ∃ cs, AreConditions e.2 cs) es i e ∧ next = .conditions e.2 := by
  constructor
  · intro h
    cases h with
    | bare hv => rcases hv with hv | hv <;> cases hv
    | keyed he => exact ⟨_, he, rfl⟩
  · rintro ⟨e, he, rfl⟩
    exact .keyed he

end Reading

end SearchRequest
