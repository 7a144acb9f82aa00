import SearchRequest.Proofs.Registered
import SearchRequest.Proofs.Wrap
import SearchRequest.Request.Builder
/-
What a request does with what was registered for it. Nothing is lost, doubled or moved: the query in
its body is the compiled one inside all filter clauses and the one scoring function that counts, and
its metadata is the caller's with the markers of the previous page laid over it
(`Builder.delivers`).
-/
namespace SearchRequest

/-- The caller metadata in options of any kind. -/
def Options.callerMeta (options : Value) : Entries :=
  match plain options with
  | .object es =>
    match Params.metaRows (Entries.find? Params.metaKey es) with
    | .ok rows => (Rows.entries? rows).getD []
    | .error _ => []
  | _ => []

/-- Options of any kind without the caller metadata. -/
def Options.withoutMeta (options : Value) : Value :=
  match plain options with
  | .object es => .object (Entries.erase Params.metaKey es)
  | v => v

/-- A request delivers a compiled query, with what the options of nested searches and those at the
top register, and the caller metadata. -/
structure Request.Delivers (r : Request) (callerMeta : Entries) (nested : List (Options Value))
    (top : Options Value) (q : Value) : Prop where
  /-- All clauses are there, in order; a score at the top replaces those of nested searches. -/
  query : Params.query? r.params = some
    (Params.scored (top.randomScore.or (Options.lastScore nested))
      (Params.filtered (nested.flatMap Options.geoClauses ++ top.geoClauses) q))
  stash : r.stash = Entries.overlay (Entries.overlay [] callerMeta)
    (nested.flatMap Options.marker ++ top.marker)

namespace Builder

/-- A request delivers what compiling a filter tree and reading options yields. The tree is compiled
in the form that `place` gives it, and its options are those it has without that. -/
def Delivers (b : Builder) (s : Settings) (req : Request) (callerMeta : Entries)
    (wheres options : Value) (write : Bool) (place : Option Where → Option Where) : Prop :=
  ∃ t q nested top, (Where.ofArgument wheres).result = .ok t ∧
    (Compile.tree? (b.environment s) none (place t)).result = .ok q ∧
    (Visited.tree? t).mapM Options.ofNested = .ok nested ∧
    Options.read write (Options.withoutMeta options) = .ok top ∧
    req.Delivers callerMeta nested top q.toValue

theorem entries?_of_stashable {rows : Rows} {es : Entries} (h : stashable rows = .ok es) :
    Rows.entries? rows = some es := by
  unfold stashable at h
  split at h
  · split at h <;> cases h
    assumption
  · cases h

theorem effects_stash {rows : Rows} (h : (stash rows).result = .ok ()) :
    (stash rows).effects = { stashed := (Rows.entries? rows).getD [] } := by
  cases rows with
  | nil => rfl
  | cons row rows =>
    cases hes : stashable (row :: rows) with
    | error m => simp [stash, hes] at h
    | ok es => simp [stash, hes, entries?_of_stashable hes]

theorem prepareOptions_ok {options v : Value} (h : (prepareOptions options).result = .ok v) :
    v = Options.withoutMeta options ∧
      (prepareOptions options).effects = { stashed := Options.callerMeta options } := by
  cases hp? : Options.plain? options with
  | error m => simp [prepareOptions, hp?] at h
  | ok v' =>
  obtain rfl := Options.plain?_ok hp?
  cases hp : Options.plain options with
  | object es =>
    rw [hp] at hp?
    cases hrows : Params.metaRows (Entries.find? Params.metaKey es) with
    | error m => simp [prepareOptions, hp?, Params.splitMeta, hrows, Except.map] at h
    | ok rows =>
      simp only [prepareOptions, Options.withoutMeta, Options.callerMeta, hp, hp?, Params.splitMeta,
        hrows, Except.map] at h ⊢
      obtain ⟨⟨⟩, hstash, hv⟩ := Outcome.result_bind_ok_iff.1 h
      cases hv
      refine ⟨rfl, ?_⟩
      rw [Outcome.effects_bind_ok hstash, effects_stash hstash]
      exact Effects.append_empty _
  | _ =>
    rw [hp] at hp?
    simp only [prepareOptions, Options.withoutMeta, Options.callerMeta, hp, hp?] at h ⊢
    cases h
    exact ⟨rfl, rfl⟩

theorem find?_body_heading (index id : Value) : Entries.find? "body" (heading index id) = none := by
  unfold heading
  split <;> split <;> simp [Entries.find?]

theorem assemble_ok {env : Environment} {write : Bool} {index id columns options : Value}
    {body es : Entries} {q : Value} (hq : Entries.find? "query" body = some q)
    (h : (assemble env write (heading index id) body columns options).result = .ok es) :
    Params.query? (.object es) = some q ∧ ∃ o, Options.read write options = .ok o ∧
      (assemble env write (heading index id) body columns options).effects.unlogged =
        Options.together [o] := by
  obtain ⟨source, hsource, hrest⟩ := Outcome.result_bind_ok_iff.1 h
  obtain ⟨c, hc, hes⟩ := Outcome.result_bind_ok_iff.1 hrest
  cases hes
  obtain ⟨o, ho, he⟩ := Compile.unlogged_options hc
  refine ⟨?_, o, ho, ?_⟩
  · apply Params.query?_mergeEntries (CompiledOptions.keepsQuery_params c)
    refine Params.query?_eq_some.2 ⟨body ++ source, ?_, ?_⟩
    · rw [Entries.find?_append, find?_body_heading]; rfl
    · rw [Entries.find?_append, hq]; rfl
  · rw [assemble, Outcome.effects_bind_ok hsource, Outcome.effects_bind_ok hc]
    refine Eq.trans ?_ he
    exact congrArg Effects.unlogged ((Effects.empty_append _).trans (Effects.append_empty _))

theorem finish_ok {s : Settings} {trace : String} {c : Compiled Entries} {req : Request}
    (h : (finish s trace c).result = .ok req) :
    ∃ es params, c.result = .ok es ∧
      (Params.wrap (.object es) (Registry.absorb {} c.effects)).1 = .ok params ∧
      req = ⟨params, (Registry.absorb {} c.effects).stash⟩ := by
  cases hc : c.result with
  | error e => simp [finish, hc] at h
  | ok es =>
    cases hw : (Params.wrap (.object es) (Registry.absorb {} c.effects)).1 with
    | error m => simp [finish, hc, hw] at h
    | ok params =>
      simp only [finish, hc, hw, Except.ok.injEq] at h
      exact ⟨es, params, rfl, hw, h.symm⟩

/-- A finished request delivers what its document asks for and what was registered for it. -/
theorem delivers_finish {s : Settings} {trace : String} {c : Compiled Entries} {req : Request}
    (h : (finish s trace c).result = .ok req) {es callerMeta : Entries} {q : Query}
    {nested : List (Options Value)} {top : Options Value} (hes : c.result = .ok es)
    (hq : Params.query? (.object es) = some q.toValue)
    (he : c.effects.unlogged = { stashed := callerMeta } ++ Options.together (nested ++ [top])) :
    req.Delivers callerMeta nested top q.toValue := by
  obtain ⟨es', params, hes', hparams, rfl⟩ := finish_ok h
  obtain rfl : es = es' := Except.ok.inj (hes.symm.trans hes')
  have hr : Registry.absorb {} c.effects = Registry.absorb {} ({ stashed := callerMeta } ++
      Options.together (nested ++ [top])) := by
    rw [← he, Effects.absorb_unlogged]
  have hlast : Options.lastScore (nested ++ [top]) =
      top.randomScore.or (Options.lastScore nested) := by
    rw [Options.lastScore_append, Options.lastScore_singleton]
  have hscore : (Registry.absorb {} c.effects).function =
      ((Options.lastScore (nested ++ [top])).map fun s => Rows.ofEntries s.function).getD [] := by
    rw [hr]
    cases hs : Options.lastScore (nested ++ [top]) <;>
      simp [Registry.absorb, Options.together, hs]
  have hclauses : (Registry.absorb {} c.effects).clauses =
      nested.flatMap Options.geoClauses ++ top.geoClauses := by
    rw [hr]
    simp [Registry.absorb, Options.together]
  obtain ⟨params', hw, hwq⟩ := Params.wrap_ok hq q.truthy_toValue (Registry.absorb {} c.effects) hscore
  obtain rfl : params = params' := Except.ok.inj (hparams.symm.trans hw)
  constructor
  · rw [hwq, hlast, hclauses]
  · rw [hr]
    simp [Registry.absorb, Options.together, Entries.overlay_append]

theorem request_delivers {b : Builder} {s : Settings} {index wheres options columns id : Value}
    {allowRefresh : Bool} {req : Request}
    (h : (b.request s index wheres options columns id allowRefresh).result = .ok req) :
    b.Delivers s req (Options.callerMeta options) wheres options allowRefresh fun t => t := by
  obtain ⟨es, -, hes, -, -⟩ := finish_ok h
  obtain ⟨v, hv, hes'⟩ := Outcome.result_bind_ok_iff.1 hes
  obtain ⟨q, hq, hes''⟩ := Outcome.result_bind_ok_iff.1 hes'
  obtain ⟨rfl, hstash⟩ := prepareOptions_ok hv
  obtain ⟨t, ht, htq⟩ := Where.result_compile_ok_iff.1 hq
  obtain ⟨nested, hnested, htree⟩ := Compile.registers_tree? _ none t q htq
  obtain ⟨hquery, top, htop, hassemble⟩ := assemble_ok (q := q.toValue) rfl hes''
  refine ⟨t, q, nested, top, ht, htq, hnested, htop, delivers_finish h hes hquery ?_⟩
  rw [Outcome.effects_bind_ok hv, Outcome.effects_bind_ok hq, Effects.unlogged_append,
    Effects.unlogged_append, hstash, Where.unlogged_compile ht, htree, hassemble,
    Options.together_append]
  rfl

theorem find?_query_bodyEntries (so : Entries) :
    Entries.find? "query" (Search.bodyEntries so) = none := by
  unfold Search.bodyEntries
  split
  · split <;> simp [Entries.find?, Search.highlightKey]
  · rfl

theorem search_delivers {b : Builder} {s : Settings}
    {index query searchOptions wheres options fields columns : Value} {req : Request}
    (h : (b.search s index query searchOptions wheres options fields columns).result = .ok req) :
    ∃ es ps, Options.withoutMeta searchOptions = .object es ∧
      Search.parameters query fields es = .ok ps ∧
      b.Delivers s req (Options.callerMeta searchOptions ++ Options.callerMeta options) wheres
        options false fun t => some (Search.splice (Search.clause (.object ps)) t) := by
  obtain ⟨es, -, hes, -, -⟩ := finish_ok h
  obtain ⟨v, hv, hes₁⟩ := Outcome.result_bind_ok_iff.1 hes
  cases v with
  | object so =>
    obtain ⟨v', hv', hes₂⟩ := Outcome.result_bind_ok_iff.1 hes₁
    obtain ⟨ps, hps, hes₃⟩ := Outcome.result_bind_ok_iff.1 hes₂
    obtain ⟨t', ht', hes₄⟩ := Outcome.result_bind_ok_iff.1 hes₃
    obtain ⟨q, hq, hes₅⟩ := Outcome.result_bind_ok_iff.1 hes₄
    obtain ⟨hso, hstash⟩ := prepareOptions_ok hv
    obtain ⟨rfl, hstash'⟩ := prepareOptions_ok hv'
    obtain ⟨t, ht, rfl⟩ := Search.result_addTo_ok_iff.1 ht'
    obtain ⟨nested, hnested, htree⟩ := Compile.registers_tree _ none _ q hq
    rw [Visited.tree_splice rfl] at hnested
    have hfind : Entries.find? "query" (Search.bodyEntries so ++ [("query", q.toValue)]) =
        some q.toValue := by
      rw [Entries.find?_append, find?_query_bodyEntries]; rfl
    obtain ⟨hquery, top, htop, hassemble⟩ := assemble_ok hfind hes₅
    refine ⟨so, ps, hso.symm, hps, t, q, nested, top, ht, hq, hnested, htop,
      delivers_finish h hes hquery ?_⟩
    rw [Outcome.effects_bind_ok hv, Outcome.effects_bind_ok hv', Outcome.effects_bind_ok hps,
      Outcome.effects_bind_ok ht', Outcome.effects_bind_ok hq]
    simp only [Effects.unlogged_append, hstash, hstash', htree, hassemble, Options.together_append]
    -- Neither the parameters nor the reading of the tree registers anything.
    show ({ stashed := Options.callerMeta searchOptions } : Effects) ++
        ({ stashed := Options.callerMeta options } ++ (∅ ++ (∅ ++
          (Options.together nested ++ Options.together [top])))) = _
    rw [Effects.empty_append, Effects.empty_append]
    ext1 <;> simp
  | _ => cases hes₁

end Builder

end SearchRequest
