import SearchRequest.Proofs.Registered
import SearchRequest.Where.Compile
/-
Compiling on a registry that is there already. `InPlace` is the compiler as it works on a shared
context: it holds the registry and changes it one registration at a time, so it could read what
earlier compiles left there, and what it did before a failure stays done.

It never does read it. `InPlace.writesOnly` says of trees, conditions and options of both kinds that
the result on a registry is the one that `compile` gives without any, and that the registry
afterwards is the one before with the effects of `compile` added to it.
-/
namespace SearchRequest

/-- A computation that may fail, on a registry that it may read and change. -/
abbrev InPlace (α : Type) := ExceptT Error (StateM Registry) α

namespace InPlace

/-- The result on a registry, and the registry afterwards. -/
def on {α : Type} (p : InPlace α) (r : Registry) : Except Error α × Registry :=
  Id.run (StateT.run (ExceptT.run p) r)

/-- One more filter clause is held. -/
def addClause (clause : Value) : InPlace Unit :=
  modify fun r => r.addClause clause

/-- A scoring function is held in place of the one before. -/
def setFunction (function : Entries) : InPlace Unit :=
  modify fun r => { r with function := Rows.ofEntries function }

/-- More metadata is held. -/
def stash (values : Entries) : InPlace Unit :=
  modify fun r => r.stashAll values

/-! ## Options -/

/-- Geographic filters registered, the box before the point. -/
def registerFilters (f : GeoFilters Value) : InPlace Unit := do
  f.box.forM fun b => addClause b.clause
  f.point.forM fun p => addClause p.clause

/-- Everything registered that options ask for. -/
def register (o : Options Value) : InPlace Unit := do
  o.prevSearchAfter.forM fun v => stash [(Options.prevSearchAfterKey, v)]
  o.filters.forM registerFilters
  o.randomScore.forM fun s => setFunction s.function

/-- Typed options compiled. What can fail comes before the first registration. -/
def compileTyped (env : Environment) (o : Options Value) : InPlace CompiledOptions := do
  let sort ← MonadExcept.ofExcept (Options.compileSort env o.sort).result
  register o
  return {
    size := o.limit
    start := o.skip
    refresh := o.write.bind WriteControl.refresh
    sort
    searchAfter := o.searchAfter
    minScore := o.minScore
    highlight := o.highlights }

/-- Options of any kind compiled. -/
def options (env : Environment) (write : Bool) (v : Value) : InPlace CompiledOptions := do
  let o ← MonadExcept.ofExcept (Options.read write v)
  compileTyped env o

/-- Options compiled for the inner hits at a nested path. -/
def nestedOptions (env : Environment) (path : String) (v : Value) : InPlace Entries := do
  let c ← options env false v
  return { c with sort := c.sort.map (Sort.under path) }.flat

/-- The inner hits of a nested query; without entries of their own they have a size. -/
def innerHits (env : Environment) (path : String) (options : Options Value)
    (ignoreUnmapped : Bool) : InPlace InnerHits := do
  let hits ← nestedOptions env path (.options options)
  return ⟨if hits.isEmpty then [("size", .int env.innerHitsSize)] else hits, ignoreUnmapped⟩

/-! ## Trees -/

mutual

/-- A condition compiled in a scope. -/
def condition (env : Environment) (scope : Option String) : Condition → InPlace Query
  | .is field v => return .leaf (.fullText (Field.qualify field scope) v)
  | .compare field op operand =>
    MonadExcept.ofExcept (Compile.comparison env (Field.qualify field scope) op operand)
  | .multiMatch query type fields options =>
    MonadExcept.ofExcept (Compile.multiMatch scope query type fields options)
  | .group clause wheres => do
    let q ← tree? env scope wheres
    return .bool clause q
  | .nested path wheres scoreMode negated =>
    let path := Field.qualify path scope
    if negated then do
      let q ← tree? env none wheres
      return .boolList .mustNot [.nested path q scoreMode none]
    else do
      let q ← tree? env (some path) wheres
      return .nested path q scoreMode none
  | .innerNested path wheres options scoreMode ignoreUnmapped => do
    let path := Field.qualify path scope
    -- The options register before the sub-tree is looked at.
    let inner ← innerHits env path options ignoreUnmapped
    let q ← tree? env (some path) wheres
    return .nested path q scoreMode (some inner)

/-- A tree that may be absent compiled in a scope. -/
def tree? (env : Environment) (scope : Option String) : Option Where → InPlace Query
  | none => return .matchAll
  | some t => tree env scope t

/-- A tree compiled in a scope. -/
def tree (env : Environment) (scope : Option String) : Where → InPlace Query
  | .all cs => do
    let qs ← conditions env scope cs
    return .boolList .must qs
  | .any bs => do
    let qs ← branches env scope bs
    return .boolList .should qs
  | .only c => condition env scope c

/-- Conditions compiled in order. -/
def conditions (env : Environment) (scope : Option String) : List Condition → InPlace (List Query)
  | [] => return []
  | c :: cs => do
    let q ← condition env scope c
    let qs ← conditions env scope cs
    return q :: qs

/-- Branches compiled in order. -/
def branches (env : Environment) (scope : Option String) :
    List (List Condition) → InPlace (List Query)
  | [] => return []
  | b :: bs => do
    let qs ← conditions env scope b
    let more ← branches env scope bs
    return if qs.isEmpty then more else .boolList .must qs :: more

end

/-- A condition from any value, compiled in a scope. -/
def ofCondition (env : Environment) (scope : Option String) (v : Value) : InPlace Query := do
  let c ← MonadExcept.ofExcept (Condition.parse v).result
  condition env scope c

/-- A tree from any value, compiled in a scope. -/
def ofTree (env : Environment) (scope : Option String) (v : Value) : InPlace Query := do
  let t ← MonadExcept.ofExcept (Where.ofArgument v).result
  tree? env scope t

/-! ## What a computation does to every registry alike -/

/-- On every registry a computation has the same result, and adds the same effects to it. -/
def Adds {α : Type} (p : InPlace α) (c : Compiled α) : Prop :=
  ∀ r : Registry, p.on r = (c.result, r.absorb c.effects)

section
variable {α β : Type} {p : InPlace α} {c : Compiled α}

theorem on_bind (p : InPlace α) (f : α → InPlace β) (r : Registry) :
    (p >>= f).on r = match p.on r with
      | (.ok a, r') => (f a).on r'
      | (.error e, r') => (.error e, r') := by
  unfold on ExceptT.run StateT.run Id.run
  simp only [bind, ExceptT.bind, ExceptT.mk, StateT.bind]
  obtain ⟨x, r'⟩ := p r
  cases x with
  | ok a => rfl
  | error e => rfl

theorem adds_ofExcept (x : Except Error α) : Adds (MonadExcept.ofExcept x) (.ofExcept x) := by
  intro r
  rw [Outcome.result_ofExcept, Outcome.effects_ofExcept, Registry.absorb_empty]
  cases x with
  | ok a => rfl
  | error e => rfl

theorem adds_pure (a : α) : Adds (pure a) (pure a) :=
  adds_ofExcept (.ok a)

/-- What a compile logs does not reach the registry. -/
theorem adds_result (h : c.effects.unlogged = ∅) : Adds (MonadExcept.ofExcept c.result) c := by
  intro r
  have hr : r.absorb c.effects = r := by
    rw [← Effects.absorb_unlogged, h, Registry.absorb_empty]
  rw [adds_ofExcept c.result r, Outcome.result_ofExcept, Outcome.effects_ofExcept,
    Registry.absorb_empty, hr]

/-- One computation after another adds what the first does and then what the second does; after a
failure it adds what was added up to there. -/
theorem adds_bind (hp : Adds p c) {f : α → InPlace β} {g : α → Compiled β}
    (hf : ∀ a, Adds (f a) (g a)) : Adds (p >>= f) (c >>= g) := by
  intro r
  rw [on_bind, hp r]
  cases hc : c.result with
  | ok a =>
    rw [Outcome.bind_ok hc, Registry.absorb_append]
    exact hf a (r.absorb c.effects)
  | error e => rw [Outcome.bind_error hc]

/-- A compile that only logs, followed by others that only log. -/
theorem unlogged_bind {g : α → Compiled β} (hc : c.effects.unlogged = ∅)
    (hg : ∀ a, (g a).effects.unlogged = ∅) : (c >>= g).effects.unlogged = ∅ := by
  cases h : c.result with
  | ok a => rw [Outcome.effects_bind_ok h, Effects.unlogged_append, hc, hg]; rfl
  | error e => rw [Outcome.bind_error h, hc]

/-- What is done with a result afterwards adds nothing. -/
theorem adds_map (hp : Adds p c) (f : α → β) :
    Adds (p >>= fun a => pure (f a)) (c >>= fun a => pure (f a)) :=
  adds_bind hp fun a => adds_pure (f a)

end

/-! ## Single registrations -/

theorem adds_modify {f : Registry → Registry} {e : Effects} (h : ∀ r : Registry, r.absorb e = f r) :
    Adds (modify f) (.perform e) := by
  intro r
  rw [Outcome.effects_perform, h]
  rfl

theorem adds_addClause (clause : Value) (log : List LogRecord) :
    Adds (addClause clause) (.perform { clauses := [clause], log }) :=
  adds_modify fun _ => rfl

theorem adds_setFunction (function : Entries) (log : List LogRecord) :
    Adds (setFunction function) (.perform { function := some function, log }) :=
  adds_modify fun r => by simp [Registry.absorb]

theorem adds_stash (values : Entries) : Adds (stash values) (.perform { stashed := values }) :=
  adds_modify fun r => by simp [Registry.absorb, Registry.stashAll]

theorem adds_seq {p q : InPlace Unit} {a b : Effects} (hp : Adds p (.perform a))
    (hq : Adds q (.perform b)) : Adds (p >>= fun _ => q) (.perform (a ++ b)) :=
  adds_bind hp fun _ => hq

theorem adds_forM {α : Type} {f : α → InPlace Unit} {e : α → Effects}
    (h : ∀ a, Adds (f a) (.perform (e a))) (o : Option α) :
    Adds (o.forM f) (.perform ((o.map e).getD ∅)) := by
  cases o with
  | none => exact adds_pure ()
  | some a => exact h a

/-! ## Options -/

/-- A sort list is compiled without a registration, whether it succeeds or fails. -/
theorem unlogged_sortEntries (allowId : Bool) (logger : String) (es : Entries) :
    (Sort.entries allowId logger es).effects.unlogged = ∅ := by
  induction es with
  | nil => rfl
  | cons e es ih =>
    obtain ⟨field, payload⟩ := e
    unfold Sort.entries
    split
    · rfl
    · exact unlogged_bind ih fun _ => rfl
    · exact unlogged_bind rfl fun _ => ih

theorem unlogged_compileSort (env : Environment) (sort : Option Entries) :
    (Options.compileSort env sort).effects.unlogged = ∅ := by
  cases sort with
  | none => rfl
  | some es => exact unlogged_bind (unlogged_sortEntries _ _ es) fun _ => rfl

theorem adds_registerFilters (f : GeoFilters Value) :
    Adds (registerFilters f) (.perform f.effects) :=
  adds_seq (adds_forM (fun _ => adds_addClause _ _) f.box)
    (adds_forM (fun _ => adds_addClause _ _) f.point)

theorem adds_register (o : Options Value) : Adds (register o) (.perform o.effects) := by
  have hmarker : Adds (o.prevSearchAfter.forM fun v => stash [(Options.prevSearchAfterKey, v)])
      (.perform { stashed := Entries.ofOption Options.prevSearchAfterKey o.prevSearchAfter }) := by
    cases o.prevSearchAfter with
    | none => exact adds_pure ()
    | some v => exact adds_stash _
  rw [Options.effects, Effects.append_assoc]
  exact adds_seq hmarker (adds_seq (adds_forM adds_registerFilters o.filters)
    (adds_forM (fun s => adds_setFunction s.function _) o.randomScore))

theorem adds_compileTyped (env : Environment) (o : Options Value) :
    Adds (compileTyped env o) (Options.compileTyped env o) :=
  adds_bind (adds_result (unlogged_compileSort env o.sort)) fun _ =>
    adds_map (adds_register o) _

theorem adds_options (env : Environment) (write : Bool) (v : Value) :
    Adds (options env write v) (Options.compile env write v) :=
  adds_bind (adds_ofExcept (Options.read write v)) fun o => adds_compileTyped env o

theorem adds_nestedOptions (env : Environment) (path : String) (v : Value) :
    Adds (nestedOptions env path v) (Options.compileNested env path v) :=
  adds_map (adds_options env false v) _

/-! ## Trees -/

theorem adds_innerHits (env : Environment) (path : String) (o : Options Value)
    (ignoreUnmapped : Bool) :
    Adds (innerHits env path o ignoreUnmapped) (Compile.innerHits env path o ignoreUnmapped) :=
  adds_map (adds_nestedOptions env path (.options o)) _

mutual

theorem adds_condition (env : Environment) (scope : Option String) :
    ∀ c, Adds (condition env scope c) (Compile.condition env scope c)
  | .is .. => adds_pure _
  | .compare .. | .multiMatch .. => adds_ofExcept _
  | .group _ wheres => adds_map (adds_tree? env scope wheres) _
  | .nested _ wheres _ true => adds_map (adds_tree? env none wheres) _
  | .nested _ wheres _ false => adds_map (adds_tree? env _ wheres) _
  | .innerNested _ wheres o _ _ =>
    adds_bind (adds_innerHits env _ o _) fun _ => adds_map (adds_tree? env _ wheres) _

theorem adds_tree? (env : Environment) (scope : Option String) :
    ∀ t, Adds (tree? env scope t) (Compile.tree? env scope t)
  | none => adds_pure _
  | some t => adds_tree env scope t

theorem adds_tree (env : Environment) (scope : Option String) :
    ∀ t, Adds (tree env scope t) (Compile.tree env scope t)
  | .all cs => adds_map (adds_conditions env scope cs) _
  | .any bs => adds_map (adds_branches env scope bs) _
  | .only c => adds_condition env scope c

theorem adds_conditions (env : Environment) (scope : Option String) :
    ∀ cs, Adds (conditions env scope cs) (Compile.conditions env scope cs)
  | [] => adds_pure _
  | c :: cs =>
    adds_bind (adds_condition env scope c) fun _ => adds_map (adds_conditions env scope cs) _

theorem adds_branches (env : Environment) (scope : Option String) :
    ∀ bs, Adds (branches env scope bs) (Compile.branches env scope bs)
  | [] => adds_pure _
  | b :: bs =>
    adds_bind (adds_conditions env scope b) fun _ => adds_map (adds_branches env scope bs) _

end

/-- Reading a value only logs. -/
theorem adds_ofParsed {α : Type} (p : Parsed α) :
    Adds (MonadExcept.ofExcept p.result) (Compile.ofParsed p) := by
  have h : (Compile.ofParsed p).effects.unlogged = ∅ := rfl
  exact adds_result h

theorem adds_ofCondition (env : Environment) (scope : Option String) (v : Value) :
    Adds (ofCondition env scope v) (Condition.compile env scope v) :=
  adds_bind (adds_ofParsed (Condition.parse v)) fun c => adds_condition env scope c

theorem adds_ofTree (env : Environment) (scope : Option String) (v : Value) :
    Adds (ofTree env scope v) (Where.compile env scope v) :=
  adds_bind (adds_ofParsed (Where.ofArgument v)) fun t => adds_tree? env scope t

end InPlace

/-! ## What is added, apart from any registry -/

/-- What is added to a registry: clauses, a scoring function if there is a new one, metadata. -/
structure Additions where
  clauses : List Value := []
  function : Option Rows := none
  stashed : Entries := []

/-- The part of effects that reaches a registry. -/
def Effects.additions (e : Effects) : Additions :=
  ⟨e.clauses, e.function.map Rows.ofEntries, e.stashed⟩

/-- The registry with the clauses behind its own, the function in place of its own when there is a
new one, and the metadata laid over its own. -/
def Registry.add (r : Registry) (a : Additions) : Registry where
  clauses := r.clauses ++ a.clauses
  function := a.function.getD r.function
  stash := Entries.overlay r.stash a.stashed

theorem Registry.add_nothing (r : Registry) : r.add {} = r := by
  simp [add]

theorem Registry.add_additions (r : Registry) (e : Effects) : r.add e.additions = r.absorb e := by
  cases h : e.function <;> simp [add, absorb, Effects.additions, h]

namespace InPlace

theorem Adds.on_eq {α : Type} {p : InPlace α} {c : Compiled α} (h : Adds p c) (r : Registry) :
    p.on r = (c.result, r.add c.effects.additions) := by
  rw [h r, Registry.add_additions]

/-- What a registry holds is never read. Compiling a tree, a condition or options has one result,
or one error, on all registries, and it makes the same additions to each of them, also when it
fails. -/
theorem writesOnly (env : Environment) (v : Value) :
    (∀ scope r, (ofTree env scope v).on r =
      ((Where.compile env scope v).result,
        r.add (Where.compile env scope v).effects.additions)) ∧
    (∀ scope r, (ofCondition env scope v).on r =
      ((Condition.compile env scope v).result,
        r.add (Condition.compile env scope v).effects.additions)) ∧
    (∀ write r, (options env write v).on r =
      ((Options.compile env write v).result,
        r.add (Options.compile env write v).effects.additions)) ∧
    (∀ path r, (nestedOptions env path v).on r =
      ((Options.compileNested env path v).result,
        r.add (Options.compileNested env path v).effects.additions)) :=
  ⟨fun scope => (adds_ofTree env scope v).on_eq, fun scope => (adds_ofCondition env scope v).on_eq,
    fun write => (adds_options env write v).on_eq,
    fun path => (adds_nestedOptions env path v).on_eq⟩

end InPlace

end SearchRequest
