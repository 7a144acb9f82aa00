import SearchRequest.Proofs.Delivery
import SearchRequest.Proofs.Grammar
/-
Typed parts in place of the plain data that they were read from. `RespelledTree` says that one value
is another with any of its conditions, sub-trees and options of nested searches in typed form, at
any depth. Such a value is read as the same tree, so that nothing that compiles, asks for or
searches with a tree can tell the two apart: `RespelledTree.interchangeable`.

Only the log can: a warning about a tree is given when plain data is read.
-/
namespace SearchRequest

mutual

/-- A tree with parts of it in typed form. -/
inductive RespelledTree : Value → Value → Prop
  | same (v : Value) : RespelledTree v v
  | typed {v : Value} {t : Option Where} (h : (Where.parse v).result = .ok t) :
      RespelledTree v (.ofTree? t)
  /-- What stands behind `and` is never read, so any values may stand there. -/
  | all {v v' : Value} {rest rest' : Entries} (hrest : Entries.keys rest' = Entries.keys rest)
      (h : RespelledConditions v v') :
      RespelledTree (.object (("and", v) :: rest)) (.object (("and", v') :: rest'))
  | any {v v' : Value} {rest rest' : Entries} (hrest : Entries.keys rest' = Entries.keys rest)
      (h : RespelledBranches v v') :
      RespelledTree (.object (("or", v) :: rest)) (.object (("or", v') :: rest'))
  | only {field : String} {operand v' : Value} (hand : field ≠ "and") (hor : field ≠ "or")
      (h : RespelledCondition (.object [(field, operand)]) v') :
      RespelledTree (.object [(field, operand)]) v'

/-- A condition in typed form, or with parts of its operand in typed form. -/
inductive RespelledCondition : Value → Value → Prop
  | same (v : Value) : RespelledCondition v v
  | typed {v : Value} {c : Condition} (h : (Condition.parse v).result = .ok c) :
      RespelledCondition v (.condition c)
  /-- The operand of a comparison is a value and holds no tree. -/
  | operand {field : String} {verb : Verb} {es es' : Entries} (hfield : field ≠ multiMatchField)
      (hverb : ∀ op, verb ≠ .compare op) (h : RespelledOperand verb es es') :
      RespelledCondition (.object [(field, .object [(verb.word, .object es)])])
        (.object [(field, .object [(verb.word, .object es')])])

/-- The operand of a verb with its sub-tree respelled, and its options in typed form. -/
inductive RespelledOperand : Verb → Entries → Entries → Prop
  | nil (verb : Verb) : RespelledOperand verb [] []
  | keep {verb : Verb} (key : String) (v : Value) {es es' : Entries}
      (h : RespelledOperand verb es es') : RespelledOperand verb ((key, v) :: es) ((key, v) :: es')
  | wheres {verb : Verb} {w w' : Value} {es es' : Entries} (hw : RespelledTree w w')
      (h : RespelledOperand verb es es') :
      RespelledOperand verb ((wheresKey, w) :: es) ((wheresKey, w') :: es')
  | options {v : Value} {o : Options Value} {es es' : Entries} (ho : Options.read false v = .ok o)
      (h : RespelledOperand .innerNested es es') :
      RespelledOperand .innerNested (("options", v) :: es) (("options", .options o) :: es')

/-- A list of conditions with some of them respelled. -/
inductive RespelledConditions : Value → Value → Prop
  | list {vs vs' : List Value} (h : List.Forall₂ RespelledCondition vs vs') :
      RespelledConditions (.list vs) (.list vs')
  | tuple {vs vs' : List Value} (h : List.Forall₂ RespelledCondition vs vs') :
      RespelledConditions (.tuple vs) (.tuple vs')

/-- A list of branches with some of them respelled. -/
inductive RespelledBranches : Value → Value → Prop
  | list {vs vs' : List Value} (h : List.Forall₂ RespelledBranch vs vs') :
      RespelledBranches (.list vs) (.list vs')
  | tuple {vs vs' : List Value} (h : List.Forall₂ RespelledBranch vs vs') :
      RespelledBranches (.tuple vs) (.tuple vs')

/-- A branch with some of its conditions respelled. -/
inductive RespelledBranch : Value → Value → Prop
  | list {vs vs' : List Value} (h : List.Forall₂ RespelledCondition vs vs') :
      RespelledBranch (.list vs) (.list vs')
  | tuple {vs vs' : List Value} (h : List.Forall₂ RespelledCondition vs vs') :
      RespelledBranch (.tuple vs) (.tuple vs')
  /-- The keys of a branch do not matter. -/
  | keyed {es es' : Entries}
      (h : List.Forall₂ RespelledConditions (es.map (·.2)) (es'.map (·.2))) :
      RespelledBranch (.object es) (.object es')

end

/-! ## Operands -/

namespace RespelledOperand

/-- An operand keeps what it holds under other keys. -/
theorem find?_other {verb : Verb} {key : String} (hw : wheresKey ≠ key) (ho : "options" ≠ key) :
    ∀ {es es' : Entries}, RespelledOperand verb es es' →
      Entries.find? key es' = Entries.find? key es
  | _, _, .nil _ => rfl
  | _, _, .keep _ _ h => by rw [Entries.find?, Entries.find?, find?_other hw ho h]
  | _, _, .wheres _ h => by
    rw [Entries.find?, Entries.find?, if_neg hw, if_neg hw, find?_other hw ho h]
  | _, _, .options _ h => by
    rw [Entries.find?, Entries.find?, if_neg ho, if_neg ho, find?_other hw ho h]

theorem keys_eq {verb : Verb} :
    ∀ {es es' : Entries}, RespelledOperand verb es es' → Entries.keys es' = Entries.keys es
  | _, _, .nil _ => rfl
  | _, _, .keep _ _ h | _, _, .wheres _ h | _, _, .options _ h =>
    congrArg (List.cons _) (keys_eq h)

theorem exists_find? {verb : Verb} {es es' : Entries} (h : RespelledOperand verb es es')
    {key : String} {v : Value} (hv : Entries.find? key es = some v) :
    ∃ v', Entries.find? key es' = some v' := by
  rw [Entries.exists_find?_iff, h.keys_eq, ← Entries.exists_find?_iff]
  exact ⟨v, hv⟩

/-- The options of an operand are read as before. -/
theorem read_options {verb : Verb} {o : Options Value} :
    ∀ {es es' : Entries}, RespelledOperand verb es es' →
      Options.read false ((Entries.find? "options" es).getD .null) = .ok o →
        Options.read false ((Entries.find? "options" es').getD .null) = .ok o
  | _, _, .nil _, hread => hread
  | _, _, .keep key v h, hread => by
    by_cases hkey : key = "options"
    · rw [Entries.find?, if_pos hkey] at hread ⊢
      exact hread
    · rw [Entries.find?, if_neg hkey] at hread ⊢
      exact read_options h hread
  | _, _, .wheres _ h, hread => by
    rw [Entries.find?, if_neg (by decide)] at hread ⊢
    exact read_options h hread
  | _, _, .options ho _, hread => by
    obtain rfl := Except.ok.inj (ho.symm.trans hread)
    exact Options.read_again ho

theorem holdsText {verb : Verb} {es es' : Entries} {text : String}
    (h : RespelledOperand verb es es') (htext : Grammar.HoldsText es "score_mode" text) :
    Grammar.HoldsText es' "score_mode" text := by
  rwa [Grammar.HoldsText, h.find?_other (by decide) (by decide)]

end RespelledOperand

/-! ## Trees -/

namespace Grammar

theorem IsCondition.unique {v : Value} {c c' : Condition} (h : IsCondition v c)
    (h' : IsCondition v c') : c = c' := by
  rw [← Parse.condition_ok_iff] at h h'
  exact Except.ok.inj (h.symm.trans h')

theorem isTree_ofTree? (t : Option Where) : IsTree (.ofTree? t) t := by
  cases t with
  | none => exact .absent rfl
  | some t => exact .typed t

/-- A condition in typed form is the condition that it was read as. -/
theorem IsCondition.of_parse {v : Value} {c c' : Condition} (h : IsCondition v c)
    (hparse : (Condition.parse v).result = .ok c') : IsCondition (.condition c') c := by
  obtain rfl := h.unique ((Parse.condition_ok_iff v c').1 hparse)
  exact .typed c

/-- What stands for a condition under a field that is no connective stands for the tree of it. -/
theorem IsCondition.isTree {field : String} {operand v' : Value} {c : Condition}
    (hand : field ≠ "and") (hor : field ≠ "or")
    (h : RespelledCondition (.object [(field, operand)]) v') (hc : IsCondition v' c) :
    IsTree v' (some (.only c)) := by
  cases h with
  | same | operand => exact .only hand hor hc
  | typed =>
    cases hc with
    | typed => exact .typedCondition c

/-- Whatever the sub-tree of the first operand is, that of the second is too. -/
def KeepsSubTree (es es' : Entries) : Prop :=
  ∀ t, IsTree ((Entries.find? wheresKey es).getD .null) t →
    IsTree ((Entries.find? wheresKey es').getD .null) t

/-- The sub-tree of an operand is respelled. What else the operand holds is read as before. -/
theorem IsOperand.respelled {field : String} {verb : Verb} {es es' : Entries} {c : Condition}
    (hc : IsOperand field verb (.object es) c) (hverb : ∀ op, verb ≠ .compare op)
    (h : RespelledOperand verb es es') (hwheres : KeepsSubTree es es') :
    IsOperand field verb (.object es') c := by
  have hsome : ∀ {w : Value} {t : Option Where}, Entries.find? wheresKey es = some w → IsTree w t →
      ∃ w', Entries.find? wheresKey es' = some w' ∧ IsTree w' t := by
    intro w t hw ht
    obtain ⟨w', hw'⟩ := h.exists_find? hw
    have ht' := hwheres t (by rwa [hw])
    rw [hw'] at ht'
    exact ⟨w', hw', ht'⟩
  cases hc with
  | compare field op => exact absurd rfl (hverb op)
  | group hclause hw ht =>
    obtain ⟨w', hw', ht'⟩ := hsome hw ht
    exact .group hclause hw' ht'
  | nested hw ht hmode =>
    obtain ⟨w', hw', ht'⟩ := hsome hw ht
    exact .nested hw' ht' (h.holdsText hmode)
  | innerNested ht ho hmode hignore =>
    refine .innerNested (hwheres _ ht) (h.read_options ho) (h.holdsText hmode) ?_
    rwa [h.find?_other (by decide) (by decide)]

theorem IsCondition.respelled {field : String} {operand v' : Value} {c : Condition}
    (hc : IsCondition (.object [(field, operand)]) c)
    (h : RespelledCondition (.object [(field, operand)]) v')
    (hwheres : ∀ {word : String} {verb : Verb} {es es' : Entries},
      operand = .object [(word, .object es)] → RespelledOperand verb es es' →
        KeepsSubTree es es') : IsCondition v' c := by
  cases h with
  | same => exact hc
  | typed hparse => exact hc.of_parse hparse
  | operand hfield hverb h =>
    cases hc with
    | multiMatch => exact absurd rfl hfield
    | is _ hmap => cases hmap
    | operator _ hword hc =>
      obtain rfl := Verb.word_injective hword
      exact .operator hfield rfl (hc.respelled hverb h (hwheres rfl h))

theorem IsBranch.of_list {vs : List Value} {b : List Condition} (h : IsBranch (.list vs) b) :
    List.Forall₂ IsCondition vs b := by
  cases h with
  | bare h =>
    cases h with
    | list h => exact h

theorem IsBranch.of_tuple {vs : List Value} {b : List Condition} (h : IsBranch (.tuple vs) b) :
    List.Forall₂ IsCondition vs b := by
  cases h with
  | bare h =>
    cases h with
    | tuple h => exact h

-- The recursion is on the value that is respelled. A condition stands at the same value as the tree
-- of it, so it is taken apart into its field and its operand before the next step.
mutual

/-- A respelled tree is the tree that it was. -/
theorem isTree_respelled (v v' : Value) (t : Option Where) (h : RespelledTree v v')
    (ht : IsTree v t) : IsTree v' t := by
  cases h with
  | same => exact ht
  | typed hparse =>
    obtain rfl := ht.unique (Parse.tree?_ok_iff v _ |>.1 hparse)
    exact isTree_ofTree? t
  | @all v v' rest rest' hrest h =>
    rw [isTree_object_iff] at ht ⊢
    obtain ⟨hkeys, ⟨-, cs, hcs, rfl⟩ | ⟨hkey, -⟩⟩ | ⟨hkey, -⟩ := ht
    · exact .inl ⟨hrest ▸ hkeys, .inl ⟨rfl, cs, areConditions_respelled v v' cs h hcs, rfl⟩⟩
    · exact absurd hkey (by decide)
    · exact absurd (.inl rfl) hkey
  | @any v v' rest rest' hrest h =>
    rw [isTree_object_iff] at ht ⊢
    obtain ⟨hkeys, ⟨hkey, -⟩ | ⟨-, bs, hbs, rfl⟩⟩ | ⟨hkey, -⟩ := ht
    · exact absurd hkey (by decide)
    · exact .inl ⟨hrest ▸ hkeys, .inr ⟨rfl, bs, areBranches_respelled v v' bs h hbs, rfl⟩⟩
    · exact absurd (.inr rfl) hkey
  | @only field operand v' hand hor h =>
    rw [isTree_object_iff] at ht
    obtain ⟨-, ⟨hkey, -⟩ | ⟨hkey, -⟩⟩ | ⟨-, -, c, hc, rfl⟩ := ht
    · exact absurd hkey hand
    · exact absurd hkey hor
    · exact IsCondition.isTree hand hor h (entry_respelled field operand v' c h hc)
termination_by structural v

theorem areConditions_respelled (v v' : Value) (cs : List Condition) (h : RespelledConditions v v')
    (hcs : AreConditions v cs) : AreConditions v' cs := by
  cases h with
  | @list vs vs' h =>
    cases hcs with
    | list hcs => exact .list (conditions_respelled vs vs' cs h hcs)
  | @tuple vs vs' h =>
    cases hcs with
    | tuple hcs => exact .tuple (conditions_respelled vs vs' cs h hcs)
termination_by structural v

theorem conditions_respelled (vs vs' : List Value) (cs : List Condition)
    (h : List.Forall₂ RespelledCondition vs vs') (hcs : List.Forall₂ IsCondition vs cs) :
    List.Forall₂ IsCondition vs' cs := by
  cases h with
  | nil => exact hcs
  | @cons v v' vs vs' hv h =>
    obtain ⟨c, cs, hc, hrest, rfl⟩ := List.forall₂_cons_left_iff.1 hcs
    exact .cons (isCondition_respelled v v' c hv hc) (conditions_respelled vs vs' cs h hrest)
termination_by structural vs

theorem areBranches_respelled (v v' : Value) (bs : List (List Condition))
    (h : RespelledBranches v v')
    (hbs : ∃ vs, (v = .list vs ∨ v = .tuple vs) ∧ List.Forall₂ IsBranch vs bs) :
    ∃ vs', (v' = .list vs' ∨ v' = .tuple vs') ∧ List.Forall₂ IsBranch vs' bs := by
  cases h with
  | @list vs vs' h =>
    obtain ⟨_, ⟨⟨⟩⟩ | ⟨⟨⟩⟩, hbs⟩ := hbs
    exact ⟨vs', .inl rfl, branches_respelled vs vs' bs h hbs⟩
  | @tuple vs vs' h =>
    obtain ⟨_, ⟨⟨⟩⟩ | ⟨⟨⟩⟩, hbs⟩ := hbs
    exact ⟨vs', .inr rfl, branches_respelled vs vs' bs h hbs⟩
termination_by structural v

theorem branches_respelled (vs vs' : List Value) (bs : List (List Condition))
    (h : List.Forall₂ RespelledBranch vs vs') (hbs : List.Forall₂ IsBranch vs bs) :
    List.Forall₂ IsBranch vs' bs := by
  cases h with
  | nil => exact hbs
  | @cons v v' vs vs' hv h =>
    obtain ⟨b, bs, hb, hrest, rfl⟩ := List.forall₂_cons_left_iff.1 hbs
    exact .cons (isBranch_respelled v v' b hv hb) (branches_respelled vs vs' bs h hrest)
termination_by structural vs

theorem isBranch_respelled (v v' : Value) (b : List Condition) (h : RespelledBranch v v')
    (hb : IsBranch v b) : IsBranch v' b := by
  cases h with
  | @list vs vs' h => exact .bare (.list (conditions_respelled vs vs' b h hb.of_list))
  | @tuple vs vs' h => exact .bare (.tuple (conditions_respelled vs vs' b h hb.of_tuple))
  | @keyed es es' h =>
    cases hb with
    | bare hb => nomatch hb
    | keyed hb => exact .keyed (lists_respelled es es' _ h hb)
termination_by structural v

theorem lists_respelled (es es' : Entries) (css : List (List Condition))
    (h : List.Forall₂ RespelledConditions (es.map (·.2)) (es'.map (·.2)))
    (hcss : List.Forall₂ AreConditions (es.map (·.2)) css) :
    List.Forall₂ AreConditions (es'.map (·.2)) css := by
  match es, es' with
  | [], [] => exact hcss
  | (_, v) :: es, (_, v') :: es' =>
    obtain ⟨cs, css, hcs, hrest, rfl⟩ := List.forall₂_cons_left_iff.1 hcss
    obtain ⟨hv, h⟩ := List.forall₂_cons.1 h
    exact .cons (areConditions_respelled v v' cs hv hcs) (lists_respelled es es' css h hrest)
termination_by structural es

theorem isCondition_respelled (v v' : Value) (c : Condition) (h : RespelledCondition v v')
    (hc : IsCondition v c) : IsCondition v' c := by
  cases v with
  | object es =>
    match es with
    | [(field, operand)] => exact entry_respelled field operand v' c h hc
    | [] | _ :: _ :: _ => nomatch hc
  | condition c' =>
    cases h with
    | same => exact hc
    | typed hparse => exact hc.of_parse hparse
  | _ => nomatch hc
termination_by structural v

theorem entry_respelled (field : String) (operand v' : Value) (c : Condition)
    (h : RespelledCondition (.object [(field, operand)]) v')
    (hc : IsCondition (.object [(field, operand)]) c) : IsCondition v' c := by
  refine hc.respelled h fun {word verb es es'} hop hes => ?_
  cases operand with
  | object operators =>
    match operators with
    | [(_, payload)] =>
      cases payload with
      | object entries =>
        have hentries : es = entries := by cases hop; rfl
        rw [hentries] at hes ⊢
        exact wheres_respelled verb entries es' hes
      | _ => cases hop
    | [] | _ :: _ :: _ => cases hop
  | _ => cases hop
termination_by structural operand

theorem wheres_respelled (verb : Verb) (es es' : Entries) (h : RespelledOperand verb es es') :
    KeepsSubTree es es' := by
  intro t ht
  cases h with
  | nil => exact ht
  | @keep _ key v es es' h =>
    by_cases hkey : key = wheresKey
    · rw [Entries.find?, if_pos hkey] at ht ⊢
      exact ht
    · rw [Entries.find?, if_neg hkey] at ht ⊢
      exact wheres_respelled verb es es' h t ht
  | @wheres _ w w' es es' hw h => exact isTree_respelled w w' t hw ht
  | @options v o es es' ho h => exact wheres_respelled .innerNested es es' h t ht
termination_by structural es

end

end Grammar

/-! ## Compiles that only log differently -/

/-- Two compiles have the same result and register the same. -/
structure SameButLog {α : Type} (c c' : Compiled α) : Prop where
  result : c.result = c'.result
  unlogged : c.effects.unlogged = c'.effects.unlogged

namespace SameButLog

variable {α β : Type} {c c' : Compiled α}

theorem refl (c : Compiled α) : SameButLog c c := ⟨rfl, rfl⟩

theorem bind (h : SameButLog c c') {f f' : α → Compiled β} (hf : ∀ a, SameButLog (f a) (f' a)) :
    SameButLog (c >>= f) (c' >>= f') := by
  cases hc : c.result with
  | ok a =>
    have hc' : c'.result = .ok a := h.result ▸ hc
    rw [Outcome.bind_ok hc, Outcome.bind_ok hc']
    exact ⟨(hf a).result, congrArg₂ (· ++ ·) h.unlogged (hf a).unlogged⟩
  | error e =>
    have hc' : c'.result = .error e := h.result ▸ hc
    rw [Outcome.bind_error hc, Outcome.bind_error hc']
    exact ⟨rfl, h.unlogged⟩

/-- A registry is the same after both. -/
theorem absorb_eq (h : SameButLog c c') (r : Registry) :
    r.absorb c.effects = r.absorb c'.effects := by
  rw [← Effects.absorb_unlogged, h.unlogged, Effects.absorb_unlogged]

theorem after_eq (h : SameButLog c c') (context : Context) :
    context.after c = context.after c' := by
  rw [Context.after, Context.after, h.absorb_eq]

theorem finish_eq {c c' : Compiled Entries} (h : SameButLog c c') (s : Settings) (trace : String) :
    (Builder.finish s trace c).result = (Builder.finish s trace c').result := by
  unfold Builder.finish
  rw [h.absorb_eq, h.result]
  cases c'.result with
  | error e => rfl
  | ok es => dsimp only; split <;> rfl

end SameButLog

/-- Readings of the same tree. -/
theorem Compile.sameButLog_ofParsed {α : Type} {p p' : Parsed α} (h : p.result = p'.result) :
    SameButLog (ofParsed p) (ofParsed p') :=
  ⟨h, rfl⟩

/-- What is read as a tree may be handed in as one. -/
theorem Where.result_ofArgument {v : Value} {t : Option Where} (h : (parse v).result = .ok t) :
    (ofArgument v).result = .ok t := by
  suffices hv : argument v = .ok v ∨ (argument v = .ok .null ∧ t = none) by
    obtain hv | ⟨hv, rfl⟩ := hv
    · simpa [ofArgument, hv, Outcome.result_bind_ok_iff] using h
    · simp [ofArgument, hv, Outcome.result_bind_ok_iff]; rfl
  cases (Parse.tree?_ok_iff v t).1 h with
  | absent hfalsy =>
    refine .inr ⟨?_, rfl⟩
    cases v with
    | condition | tree | options | geoFilters | geoBox | geoPoint | randomScore => cases hfalsy
    | _ => simp [argument, Value.isTyped, hfalsy]
  | typed | typedCondition | all | any | only => exact .inl rfl

namespace RespelledTree

variable {r r' : Value} {t : Option Where}

theorem parse_eq (h : RespelledTree r r') (ht : (Where.parse r).result = .ok t) :
    (Where.parse r').result = .ok t :=
  (Parse.tree?_ok_iff r' t).2 (Grammar.isTree_respelled r r' t h ((Parse.tree?_ok_iff r t).1 ht))

theorem ofArgument_eq (h : RespelledTree r r') (ht : (Where.parse r).result = .ok t) :
    (Where.ofArgument r').result = (Where.ofArgument r).result := by
  rw [Where.result_ofArgument ht, Where.result_ofArgument (h.parse_eq ht)]

theorem compile_sameButLog (h : RespelledTree r r') (ht : (Where.parse r).result = .ok t)
    (env : Environment) (scope : Option String) :
    SameButLog (Where.compile env scope r') (Where.compile env scope r) :=
  (Compile.sameButLog_ofParsed (h.ofArgument_eq ht)).bind fun _ => .refl _

/-- **Typed and plain parts of a tree are interchangeable.** A tree that is read is read as the same
tree when any parts of it are in typed form. Compiled in any context and under any path it gives the
same query or the same failure, and leaves the same context; and so do requests and searches. -/
theorem interchangeable (h : RespelledTree r r') (ht : (Where.parse r).result = .ok t) :
    (Where.parse r').result = .ok t ∧
    (∀ (c : Context) (scope : Option String),
      (Where.compile c.environment scope r').result = (Where.compile c.environment scope r).result ∧
      c.after (Where.compile c.environment scope r') =
        c.after (Where.compile c.environment scope r)) ∧
    (∀ (b : Builder) (s : Settings) (index options columns id : Value) (allowRefresh : Bool),
      (b.request s index r' options columns id allowRefresh).result =
        (b.request s index r options columns id allowRefresh).result) ∧
    (∀ parameters : Value,
      (Search.addTo r' parameters).result = (Search.addTo r parameters).result) := by
  refine ⟨h.parse_eq ht, fun c scope => ?compile,
    fun b s index options columns id write => ?request, fun parameters => ?search⟩
  case compile =>
    have hsame := h.compile_sameButLog ht c.environment scope
    exact ⟨hsame.result, hsame.after_eq c⟩
  case request =>
    refine SameButLog.finish_eq (.bind (.refl _) fun rest => ?_) s _
    exact (h.compile_sameButLog ht _ none).bind fun q => .refl _
  case search =>
    have hadd : ∀ {v : Value}, (Where.parse v).result = .ok t → (Search.addTo v parameters).result =
        .ok (Search.splice (Search.clause parameters) t) := fun hv =>
      Search.result_addTo_ok_iff.2 ⟨t, Where.result_ofArgument hv, rfl⟩
    rw [hadd ht, hadd (h.parse_eq ht)]

/-- A nested search with its sub-tree and its options in typed form, beside a typed condition. -/
theorem interchangeable_nested :
    let plain (wheres options rating : Value) : Value :=
      .object [("and", .list [.object [("comments", .object [("innerNested", .object
        [("wheres", wheres), ("score_mode", .str "avg"), ("options", options)])])], rating])]
    let r := plain (.object [("name", .str "x")]) (.object [("limit", .int 3)])
      (.object [("rating", .object [("gt", .int 4)])])
    let r' := plain (.tree (.only (.is "name" (.str "x")))) (.options { limit := some 3 })
      (.condition (.compare "rating" .gt (.int 4)))
    RespelledTree r r' ∧ (Where.parse r').result = (Where.parse r).result ∧
      ∀ (c : Context) (scope : Option String),
        c.after (Where.compile c.environment scope r') =
          c.after (Where.compile c.environment scope r) := by
  intro plain r r'
  have hr : (Where.parse r).result = .ok (some (.all
    [.innerNested "comments" (some (.only (.is "name" (.str "x")))) { limit := some 3 } "avg" false,
      .compare "rating" .gt (.int 4)])) := rfl
  have hwheres : RespelledTree (.object [("name", .str "x")])
      (.tree (.only (.is "name" (.str "x")))) :=
    .typed (t := some (.only (.is "name" (.str "x")))) rfl
  have hoperand : RespelledOperand .innerNested
      [("wheres", .object [("name", .str "x")]), ("score_mode", .str "avg"),
        ("options", .object [("limit", .int 3)])]
      [("wheres", .tree (.only (.is "name" (.str "x")))), ("score_mode", .str "avg"),
        ("options", .options { limit := some 3 })] :=
    .wheres hwheres (.keep _ _ (.options rfl (.nil _)))
  have h : RespelledTree r r' := .all rfl (.list (.cons
    (.operand (by decide) (fun _ => Verb.noConfusion) hoperand) (.cons (.typed rfl) .nil)))
  obtain ⟨hparse, hcompile, -, -⟩ := interchangeable h hr
  exact ⟨h, hparse.trans hr.symm, fun c scope => (hcompile c scope).2⟩

end RespelledTree

end SearchRequest
