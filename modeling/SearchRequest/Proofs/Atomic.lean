import SearchRequest.Context
import SearchRequest.Proofs.Grammar
import SearchRequest.Proofs.InPlace
/-
Failures that leave nothing behind. What can fail in options, reading them and compiling their sort
list, comes before the first registration, and a tree is read as a whole before any part of it is
compiled. So options that fail register nothing, and neither does a tree with a fault that shows in
reading it, whatever stands before the fault: `Context.untouched`.
-/
namespace SearchRequest

/-! ## Compiles that register only when they succeed -/

/-- A compile that fails has registered nothing; log records do not count. -/
def Atomic {α : Type} (c : Compiled α) : Prop :=
  ∀ e, c.result = .error e → c.effects.unlogged = ∅

section
variable {α β : Type} {x : Compiled α} {f : α → Compiled β}

theorem atomic_of_ok {a : α} (h : x.result = .ok a) : Atomic x :=
  fun _ he => nomatch h.symm.trans he

/-- What comes before the last step registers nothing at all. -/
theorem atomic_bind (hx : x.effects.unlogged = ∅) (hf : ∀ a, Atomic (f a)) : Atomic (x >>= f) := by
  intro e he
  cases h : x.result with
  | ok a =>
    rw [Outcome.bind_ok h] at he
    rw [Outcome.effects_bind_ok h, Effects.unlogged_append, hx, hf a e he]
    rfl
  | error e' => rw [Outcome.bind_error h, hx]

theorem atomic_map (hx : Atomic x) (g : α → β) : Atomic (x >>= fun a => pure (g a)) := by
  intro e he
  cases h : x.result with
  | ok a =>
    rw [Outcome.bind_ok h] at he
    cases he
  | error e' =>
    rw [Outcome.bind_error h]
    exact hx e' h

end

namespace Options

theorem atomic_compileTyped (env : Environment) (o : Options Value) :
    Atomic (compileTyped env o) :=
  atomic_bind (InPlace.unlogged_compileSort env o.sort) fun _ => atomic_of_ok rfl

theorem atomic_compile (env : Environment) (write : Bool) (v : Value) :
    Atomic (compile env write v) :=
  atomic_bind (x := .ofExcept (read write v)) rfl fun o => atomic_compileTyped env o

theorem atomic_compileNested (env : Environment) (path : String) (v : Value) :
    Atomic (compileNested env path v) :=
  atomic_map (atomic_compile env false v) _

end Options

/-! ## Trees that cannot be read -/

namespace Where

/-- What cannot be read as a tree cannot be handed in as one. -/
theorem ofArgument_error {v : Value} {e : Error} (h : (parse v).result = .error e) :
    ∃ e', (ofArgument v).result = .error e' := by
  have htruthy : v.truthy = true := by
    by_contra hfalsy
    have hnone : (parse v).result = .ok none :=
      (Parse.tree?_ok_iff v none).2 (.absent (by simpa using hfalsy))
    cases hnone.symm.trans h
  have hargument : argument v = .ok v ∨ ∃ e', argument v = .error e' := by
    unfold argument
    simp only [htruthy, Bool.not_true, Bool.false_eq_true, if_false]
    split
    · exact .inl rfl
    · split
      · exact .inl rfl
      · exact .inr ⟨_, rfl⟩
  rcases hargument with hv | ⟨e', hv⟩
  · refine ⟨e, ?_⟩
    rw [ofArgument, hv, Outcome.bind_ok rfl]
    exact h
  · exact ⟨e', by rw [ofArgument, hv]; rfl⟩

theorem compile_error {v : Value} {e : Error} (h : (parse v).result = .error e) (env : Environment)
    (scope : Option String) :
    ∃ e', (compile env scope v).result = .error e' ∧ (compile env scope v).effects.unlogged = ∅ := by
  obtain ⟨e', he'⟩ := ofArgument_error h
  have hread : (Compile.ofParsed (ofArgument v)).result = .error e' := he'
  rw [compile, Outcome.bind_error hread]
  exact ⟨e', rfl, rfl⟩

end Where

/-! ## Contexts after a failure -/

namespace Context

/-- A compile in a context fails and leaves the context as it was. So does the computation that
carries it out on the registry, one registration at a time. -/
structure FailsUntouched {α : Type} (context : Context) (c : Compiled α) (p : InPlace α)
    (e : Error) : Prop where
  result : c.result = .error e
  after : context.after c = context
  inPlace : p.on context.registry = (.error e, context.registry)

theorem failsUntouched {α : Type} {c : Compiled α} {p : InPlace α} (hp : InPlace.Adds p c)
    {e : Error} (he : c.result = .error e) (hc : c.effects.unlogged = ∅) (context : Context) :
    context.FailsUntouched c p e := by
  have habsorb : context.registry.absorb c.effects = context.registry := by
    rw [← Effects.absorb_unlogged, hc, Registry.absorb_empty]
  refine ⟨he, ?_, ?_⟩
  · rw [Context.after, habsorb]
  · rw [hp context.registry, he, habsorb]

/-- **Failures leave nothing behind.** Options that fail to compile, on their own or for the inner
hits at any path, leave the context as it was, also when what they ask for beside the fault could be
registered. A value that cannot be read as a tree fails to compile as one under every path and
leaves the context as it was, wherever in it the fault is and whatever stands before it. -/
theorem untouched (context : Context) (v : Value) :
    (∀ write e, (Options.compile context.environment write v).result = .error e →
      context.FailsUntouched (Options.compile context.environment write v)
        (InPlace.options context.environment write v) e) ∧
    (∀ path e, (Options.compileNested context.environment path v).result = .error e →
      context.FailsUntouched (Options.compileNested context.environment path v)
        (InPlace.nestedOptions context.environment path v) e) ∧
    (∀ scope e, (Where.parse v).result = .error e → ∃ e',
      context.FailsUntouched (Where.compile context.environment scope v)
        (InPlace.ofTree context.environment scope v) e') := by
  refine ⟨?options, ?nested, ?tree⟩
  case options =>
    intro write e he
    exact failsUntouched (InPlace.adds_options _ write v) he
      (Options.atomic_compile _ write v e he) context
  case nested =>
    intro path e he
    exact failsUntouched (InPlace.adds_nestedOptions _ path v) he
      (Options.atomic_compileNested _ path v e he) context
  case tree =>
    intro scope e he
    obtain ⟨e', he', hc⟩ := Where.compile_error he context.environment scope
    exact ⟨e', failsUntouched (InPlace.adds_ofTree _ scope v) he' hc context⟩

/-- Options with a sort payload that is none beside a filter, a score and a marker, and a tree with an
unknown option two scopes deep behind a nested search that asks for a filter. -/
theorem untouched_beside_filters :
    let context : Context :=
      { environment := {}, registry := { clauses := [.str "held"], stash := [("page", .int 1)] } }
    let filters : Value := .object [("filterGeoBox", .object
      [("field", .str "place"), ("topLeft", .str "a"), ("bottomRight", .str "b")])]
    let options : Value := .object
      [("filters", filters), ("random_score", .object [("column", .str "seen"), ("seed", .int 3)]),
        ("prev_search_after", .list [.int 7]), ("sort", .object [("age", .int 5)])]
    let search (wheres options : Value) : Value := .object [("innerNested", .object
      [("wheres", wheres), ("options", options), ("score_mode", .str "avg")])]
    let tree : Value := .object [("and", .list
      [.object [("comments", search .null (.object [("filters", filters)]))],
        .object [("posts", search
          (.object [("posts.replies", search .null (.object [("offset", .int 1)]))]) .null)]])]
    context.FailsUntouched (Options.compile {} false options) (InPlace.options {} false options)
      (.sortPayload "age") ∧
    context.FailsUntouched (Options.compileNested {} "posts" options)
      (InPlace.nestedOptions {} "posts" options) (.sortPayload "age") ∧
    ∃ e, context.FailsUntouched (Where.compile {} none tree) (InPlace.ofTree {} none tree) e := by
  intro context filters options search tree
  obtain ⟨hoptions, hnested, -⟩ := untouched context options
  obtain ⟨-, -, htree⟩ := untouched context tree
  have hread : (Where.parse tree).result = .error (.unknownOption "offset") := rfl
  exact ⟨hoptions false _ rfl, hnested "posts" _ rfl, htree none _ hread⟩

end Context

end SearchRequest
