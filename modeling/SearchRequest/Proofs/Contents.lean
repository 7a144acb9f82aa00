import SearchRequest.Proofs.Accepted
import SearchRequest.Proofs.Delivery
/-
What a request document holds: what was asked for, and nothing else. The document is put together
from the heading, the query, the source fields and the options, and is changed twice afterwards,
when the query is wrapped. None of these writes over another: each has keys of its own, and an entry
is there exactly when there is something to say (`Builder.request_asked`).
-/
namespace SearchRequest

/-! ## Merging -/

theorem Params.mergeEntries_of_new {params fragment : Entries}
    (hnodup : (Entries.keys fragment).Nodup)
    (hnew : ∀ k ∈ Entries.keys fragment, k ∉ Entries.keys params) :
    mergeEntries params fragment = params ++ fragment := by
  refine Entries.foldl_of_new (fun es e h => ?_) hnodup hnew
  have hnone : Entries.find? e.1 es = none := Entries.find?_eq_none_iff.2 h
  simp [mergeEntry, hnone, Entries.insert_of_notMem h]

namespace CompiledOptions

theorem keys_envelope_sublist (c : CompiledOptions) :
    (Entries.keys c.envelope).Sublist ["size", "from", "refresh"] := by
  rw [envelope, Entries.keys_append, Entries.keys_append]
  exact ((Entries.keys_ofOption_sublist ..).append (Entries.keys_ofOption_sublist ..)).append
    (Entries.keys_ofOption_sublist ..)

theorem keys_body_sublist (c : CompiledOptions) :
    (Entries.keys c.body).Sublist ["sort", "search_after", "min_score", "highlight"] := by
  rw [body, Entries.keys_append, Entries.keys_append, Entries.keys_append]
  exact (((Entries.keys_ofOption_sublist ..).append (Entries.keys_ofOption_sublist ..)).append
    (Entries.keys_ofOption_sublist ..)).append (Entries.keys_ofOption_sublist ..)

end CompiledOptions

theorem Builder.keys_heading_sublist (index id : Value) :
    (Entries.keys (heading index id)).Sublist ["index", "id"] := by
  rw [heading, Entries.keys_append]
  have hindex : (Entries.keys (if index.truthy then [("index", index)] else [])).Sublist
      ["index"] := by
    split <;> simp [Entries.keys]
  have hid : (Entries.keys (if id.isNull then [] else [("id", id)])).Sublist ["id"] := by
    split <;> simp [Entries.keys]
  exact hindex.append hid

namespace Params

/-- Compiled options merged into a document whose body says nothing that options say. -/
theorem mergeEntries_params {heading body : Entries} (c : CompiledOptions)
    (hheading : ∀ k ∈ Entries.keys heading, k ∈ ["index", "id"])
    (hbody : ∀ k ∈ Entries.keys body, k ∈ ["query", "_source"]) :
    mergeEntries (heading ++ [("body", .object body)]) c.params =
      heading ++ ("body", .object (body ++ c.body)) :: c.envelope := by
  have hnobody : "body" ∉ Entries.keys heading := fun h => absurd (hheading _ h) (by decide)
  have henvelope : mergeEntries (heading ++ [("body", .object body)]) c.envelope =
      heading ++ ("body", .object body) :: c.envelope := by
    rw [mergeEntries_of_new (c.keys_envelope_sublist.nodup (by decide)), List.append_assoc,
      List.singleton_append]
    intro k hk hmem
    rw [Entries.keys_append] at hmem
    have hkeys : k ∈ ["index", "id"] ++ ["body"] :=
      List.mem_append.2 ((List.mem_append.1 hmem).imp_left (hheading k))
    have hdisjoint : ∀ k ∈ ["size", "from", "refresh"], k ∉ ["index", "id"] ++ ["body"] := by decide
    exact hdisjoint k (c.keys_envelope_sublist.subset hk) hkeys
  have hoverlay : Entries.overlay body c.body = body ++ c.body := by
    refine Entries.overlay_of_new (c.keys_body_sublist.nodup (by decide)) fun k hk hmem => ?_
    have hdisjoint : ∀ k ∈ ["sort", "search_after", "min_score", "highlight"],
        k ∉ ["query", "_source"] := by decide
    exact hdisjoint k (c.keys_body_sublist.subset hk) (hbody k hmem)
  have hfind : Entries.find? "body" (heading ++ ("body", .object body) :: c.envelope) =
      some (.object body) := Entries.find?_append_cons hnobody _ _
  rw [CompiledOptions.params, mergeEntries, List.foldl_append]
  rw [mergeEntries] at henvelope
  rw [henvelope]
  split
  · rename_i hempty
    rw [List.isEmpty_iff.1 hempty, List.append_nil, List.foldl_nil]
  · simp only [List.foldl_cons, List.foldl_nil, mergeEntry, hfind, hoverlay]
    rw [Entries.insert_append_cons hnobody]

end Params

/-! ## Wrapping -/

/-- A query inside everything that a registry holds. -/
def Registry.around (r : Registry) (q : Value) : Value :=
  let q := if r.clauses.isEmpty then q else Params.withClauses r.clauses q
  if r.function.isEmpty then q else Params.withFunction r.function q

/-- Metadata is not put around a query. -/
theorem Registry.around_stashed (stashed : Entries) (e : Effects) (q : Value) :
    (absorb {} ({ stashed } ++ e)).around q = (absorb {} e).around q := by
  cases h : e.function <;> simp [absorb, around, h]

/-- What registers no filter clause and no scoring function. -/
def Effects.Bare (e : Effects) : Prop :=
  e.clauses = [] ∧ e.function = none

theorem Effects.Bare.around {e : Effects} (h : e.Bare) (q : Value) :
    (Registry.absorb {} e).around q = q := by
  simp [Registry.absorb, Registry.around, h.1, h.2]

namespace Params

section
variable {heading : Entries} (hbody : "body" ∉ Entries.keys heading) {q : Value}
  (hq : q.truthy = true) (rest more : Entries)
include hbody hq

theorem mapQuery_document (f : Value → Value) :
    mapQuery f (.object (heading ++ ("body", .object (("query", q) :: rest)) :: more)) =
      .ok (.object (heading ++ ("body", .object (("query", f q) :: rest)) :: more)) := by
  have hfind : Entries.find? "body" (heading ++ ("body", .object (("query", q) :: rest)) :: more) =
      some (.object (("query", q) :: rest)) := Entries.find?_append_cons hbody _ _
  have hobject : (Entries.find? "body" (heading ++ ("body", .object (("query", q) :: rest)) ::
      more)).getD (.object []) = .object (("query", q) :: rest) := by rw [hfind]; rfl
  simp [mapQuery_object f hobject, currentQuery, Entries.find?, hq, Entries.insert,
    Entries.insert_append_cons hbody]

/-- Wrapping changes the query where it stands and nothing else. -/
theorem wrap_document (r : Registry) :
    (wrap (.object (heading ++ ("body", .object (("query", q) :: rest)) :: more)) r).1 =
      .ok (.object (heading ++ ("body", .object (("query", r.around q) :: rest)) :: more)) := by
  have hclauses : (withClauses r.clauses q).truthy = true := rfl
  by_cases hc : r.clauses.isEmpty = true <;> by_cases hf : r.function.isEmpty = true <;>
    simp [wrap, wrapClauses, wrapFunction, Registry.takeClauses, Registry.takeFunction,
      Registry.around, hc, hf, mapQuery_document hbody hq, mapQuery_document hbody hclauses]

end

/-- What is built around a query does not depend on metadata. -/
theorem wrap_congr {r r' : Registry} (hclauses : r.clauses = r'.clauses)
    (hfunction : r.function = r'.function) (params : Value) :
    (wrap params r).1 = (wrap params r').1 := by
  obtain ⟨clauses, function, stash⟩ := r
  obtain ⟨clauses', function', stash'⟩ := r'
  cases hclauses
  cases hfunction
  obtain ⟨wrapped, h, h'⟩ : ∃ wrapped,
      wrapClauses params ⟨clauses, function, stash⟩ = (wrapped, ⟨[], function, stash⟩) ∧
      wrapClauses params ⟨clauses, function, stash'⟩ = (wrapped, ⟨[], function, stash'⟩) :=
    ⟨_, rfl, rfl⟩
  simp only [wrap, h, h']
  cases wrapped <;> rfl

end Params

/-! ## Requests -/

/-- The source fields that columns select: none when they select all, a single text as it is, and
otherwise the items. -/
def Params.Selects (columns : Value) (source : Option Value) : Prop :=
  if isWildcard columns then source = none
  else (∃ s, columns = .str s ∧ source = some (.str s)) ∨
    ((∀ s, columns ≠ .str s) ∧ ∃ vs, columns.items = .ok vs ∧ source = some (.list vs))

theorem Params.source_ok_iff {columns : Value} {selected : Option Value} :
    source columns = .ok selected ↔ Selects columns selected := by
  unfold source Selects
  split
  · simp [eq_comm]
  · split
    · simp [eq_comm]
    · rename_i hstr
      rw [map_ok_iff]
      constructor
      · rintro ⟨vs, hvs, rfl⟩
        exact .inr ⟨hstr, vs, hvs, rfl⟩
      · rintro (⟨s, hs, -⟩ | ⟨-, vs, hvs, rfl⟩)
        · exact absurd hs (hstr s)
        · exact ⟨vs, hvs, rfl⟩

theorem Options.isSome_compileSort {env : Environment} {given : Option Entries}
    {sort : Option (List Sort.Entry)} (h : (compileSort env given).result = .ok sort) :
    sort.isSome = given.isSome := by
  cases given with
  | none =>
    cases h
    rfl
  | some es =>
    obtain ⟨entries, -, hsort⟩ := Outcome.result_bind_ok_iff.1 h
    cases hsort
    rfl

namespace Params

/-- What a document holds under a key. -/
def at? (key : String) : Value → Option Value
  | .object es => Entries.find? key es
  | _ => none

/-- What the body of a document holds under a key. -/
def inBody? (key : String) (params : Value) : Option Value :=
  (at? "body" params).bind (at? key)

end Params

namespace Builder

/-- The body that asks for a query, source fields, a sort list and what options hold. -/
def askedBody (q : Value) (source : Option Value) (sort : Option (List Sort.Entry))
    (o : Options Value) : Entries :=
  [("query", q)] ++ Entries.ofOption "_source" source ++
    Entries.ofOption "sort" (sort.map fun es => .list (es.map Sort.Entry.toValue)) ++
    Entries.ofOption "search_after" (o.searchAfter.map .list) ++
    Entries.ofOption "min_score" (o.minScore.map .float) ++
    Entries.ofOption "highlight" (o.highlights.map .object)

/-- The document that asks for all of this in an index, and for one document when there is an id. -/
def asked (index id q : Value) (source : Option Value) (sort : Option (List Sort.Entry))
    (o : Options Value) : Value :=
  .object
    ((if index.truthy then [("index", index)] else []) ++
      (if id.isNull then [] else [("id", id)]) ++
      [("body", .object (askedBody q source sort o))] ++
      Entries.ofOption "size" (o.limit.map fun n => .int n) ++
      Entries.ofOption "from" (o.skip.map fun n => .int n) ++
      Entries.ofOption "refresh" ((o.write.bind WriteControl.refresh).map Refresh.toValue))

theorem asked_eq (index id q : Value) (source : Option Value) (sort : Option (List Sort.Entry))
    (o : Options Value) :
    let c : CompiledOptions :=
      { size := o.limit
        start := o.skip
        refresh := o.write.bind WriteControl.refresh
        sort
        searchAfter := o.searchAfter
        minScore := o.minScore
        highlight := o.highlights }
    asked index id q source sort o = .object (heading index id ++
      ("body", .object (("query", q) :: (Entries.ofOption "_source" source ++ c.body))) ::
        c.envelope) := by
  simp only [asked, askedBody, heading, CompiledOptions.body, CompiledOptions.envelope,
    List.append_assoc, List.cons_append, List.nil_append]

section
variable (index id q : Value) (source : Option Value) (sort : Option (List Sort.Entry))
  (o : Options Value)

theorem at?_index_asked :
    Params.at? "index" (asked index id q source sort o) =
      if index.truthy then some index else none := by
  by_cases hindex : index.truthy = true <;> by_cases hid : id.isNull = true <;>
    simp [asked, Params.at?, Entries.find?_append, Entries.find?_ofOption, Entries.find?, hindex,
      hid]

theorem at?_id_asked :
    Params.at? "id" (asked index id q source sort o) = if id.isNull then none else some id := by
  by_cases hindex : index.truthy = true <;> by_cases hid : id.isNull = true <;>
    simp [asked, Params.at?, Entries.find?_append, Entries.find?_ofOption, Entries.find?, hindex,
      hid]

theorem at?_body_asked :
    Params.at? "body" (asked index id q source sort o) =
      some (.object (askedBody q source sort o)) := by
  by_cases hindex : index.truthy = true <;> by_cases hid : id.isNull = true <;>
    simp [asked, Params.at?, Entries.find?, hindex, hid]

theorem inBody?_source_asked :
    Params.inBody? "_source" (asked index id q source sort o) = source := by
  rw [Params.inBody?, at?_body_asked]
  simp [askedBody, Params.at?, Entries.find?_append, Entries.find?_ofOption, Entries.find?]

theorem inBody?_query_asked :
    Params.inBody? "query" (asked index id q source sort o) = some q := by
  rw [Params.inBody?, at?_body_asked]
  simp [askedBody, Params.at?, Entries.find?]

end

/-- What is registered by a filter tree and by options. -/
def registered (env : Environment) (allowRefresh : Bool) (wheres options : Value) : Effects :=
  (Where.compile env none wheres).effects ++
    (Options.compile env allowRefresh (Options.withoutMeta options)).effects

theorem sourceEntries_ok {columns : Value} {es : Entries} (h : sourceEntries columns = .ok es) :
    ∃ source, Params.source columns = .ok source ∧ es = Entries.ofOption "_source" source := by
  unfold sourceEntries at h
  cases hsource : Params.source columns with
  | error m => rw [hsource] at h; cases h
  | ok source =>
    rw [hsource] at h
    cases h
    exact ⟨source, rfl, rfl⟩

/-- The document that a query, columns and options are put together to. -/
theorem assemble_contents {env : Environment} {write : Bool} {index id columns options q : Value}
    {es : Entries}
    (h : (assemble env write (heading index id) [("query", q)] columns options).result = .ok es) :
    ∃ c source, (Options.compile env write options).result = .ok c ∧
      Params.source columns = .ok source ∧
      es = heading index id ++
        ("body", .object (("query", q) :: (Entries.ofOption "_source" source ++ c.body))) ::
          c.envelope ∧
      (assemble env write (heading index id) [("query", q)] columns options).effects =
        (Options.compile env write options).effects := by
  obtain ⟨sourceEntries, hentries, hrest⟩ := Outcome.result_bind_ok_iff.1 h
  obtain ⟨c, hc, hes⟩ := Outcome.result_bind_ok_iff.1 hrest
  obtain ⟨source, hsource, rfl⟩ := sourceEntries_ok hentries
  cases hes
  refine ⟨c, source, hc, hsource, ?_, ?_⟩
  · refine Params.mergeEntries_params c (keys_heading_sublist index id).subset ?_
    intro k hk
    rw [Entries.keys_append] at hk
    exact ((List.Sublist.refl ["query"]).append
      (Entries.keys_ofOption_sublist "_source" source)).subset hk
  · rw [assemble, Outcome.effects_bind_ok hentries, Outcome.effects_bind_ok hc]
    exact (Effects.empty_append _).trans (Effects.append_empty _)

theorem request_contents {b : Builder} {s : Settings} {index wheres options columns id : Value}
    {allowRefresh : Bool} {req : Request}
    (h : (b.request s index wheres options columns id allowRefresh).result = .ok req) :
    ∃ q o source sort, (Where.compile (b.environment s) none wheres).result = .ok q ∧
      Options.read allowRefresh (Options.withoutMeta options) = .ok o ∧
      Params.source columns = .ok source ∧
      (Options.compileSort (b.environment s) o.sort).result = .ok sort ∧
      req.params = asked index id ((Registry.absorb {}
        (registered (b.environment s) allowRefresh wheres options)).around q.toValue)
          source sort o := by
  obtain ⟨es, params, hes, hparams, rfl⟩ := finish_ok h
  obtain ⟨v, hv, hes₁⟩ := Outcome.result_bind_ok_iff.1 hes
  obtain ⟨q, hq, hes₂⟩ := Outcome.result_bind_ok_iff.1 hes₁
  obtain ⟨rfl, hstash⟩ := prepareOptions_ok hv
  obtain ⟨c, source, hc, hsource, rfl, heffects⟩ := assemble_contents hes₂
  obtain ⟨o, ho, hc'⟩ := Outcome.result_bind_ok_iff.1 hc
  obtain ⟨sort, hsort, hc''⟩ := Outcome.result_bind_ok_iff.1 hc'
  refine ⟨q, o, source, sort, hq, ho, hsource, hsort, ?_⟩
  rw [Outcome.effects_bind_ok hv, Outcome.effects_bind_ok hq, heffects, hstash] at hparams
  have hnobody : "body" ∉ Entries.keys (heading index id) := fun hk =>
    absurd ((keys_heading_sublist index id).subset hk) (by decide)
  rw [Params.wrap_document hnobody q.truthy_toValue] at hparams
  cases hc''
  cases hparams
  have haround : (Registry.absorb {} ({ stashed := Options.callerMeta options } ++
      registered (b.environment s) allowRefresh wheres options)).around q.toValue =
        (Registry.absorb {} (registered (b.environment s) allowRefresh wheres options)).around
          q.toValue := Registry.around_stashed _ _ _
  rw [asked_eq, ← haround]
  rfl

/-- **A request document is what was asked for.** It holds the index unless that counts as absent,
the id unless that is null, the source fields unless all are selected, and what the options say when
it is not null; and it always has a query. Requests that differ in their options alone agree on the
rest, and on the query too when nothing is registered that goes around it. -/
theorem request_asked (b : Builder) (s : Settings) (index wheres columns id : Value)
    (allowRefresh : Bool) :
    (∀ {options : Value} {req : Request},
      (b.request s index wheres options columns id allowRefresh).result = .ok req →
        ∃ q o source sort, (Where.compile (b.environment s) none wheres).result = .ok q ∧
          Options.read allowRefresh (Options.withoutMeta options) = .ok o ∧
          o.write.isSome = allowRefresh ∧
          Params.Selects columns source ∧
          (Options.compileSort (b.environment s) o.sort).result = .ok sort ∧
          sort.isSome = o.sort.isSome ∧
          req.params = asked index id ((Registry.absorb {}
            (registered (b.environment s) allowRefresh wheres options)).around q.toValue)
              source sort o) ∧
    (∀ {options options' : Value} {req req' : Request},
      (b.request s index wheres options columns id allowRefresh).result = .ok req →
      (b.request s index wheres options' columns id allowRefresh).result = .ok req' →
        Params.at? "index" req.params = Params.at? "index" req'.params ∧
        Params.at? "id" req.params = Params.at? "id" req'.params ∧
        Params.inBody? "_source" req.params = Params.inBody? "_source" req'.params ∧
        ((registered (b.environment s) allowRefresh wheres options).Bare →
          (registered (b.environment s) allowRefresh wheres options').Bare →
            Params.inBody? "query" req.params = Params.inBody? "query" req'.params)) := by
  constructor
  · intro options req h
    obtain ⟨q, o, source, sort, hq, ho, hsource, hsort, hparams⟩ := request_contents h
    exact ⟨q, o, source, sort, hq, ho, Options.isSome_write_of_read ho,
      Params.source_ok_iff.1 hsource, hsort, Options.isSome_compileSort hsort, hparams⟩
  · intro options options' req req' h h'
    obtain ⟨q, o, source, sort, hq, -, hsource, -, hparams⟩ := request_contents h
    obtain ⟨q', o', source', sort', hq', -, hsource', -, hparams'⟩ := request_contents h'
    obtain rfl : q = q' := Except.ok.inj (hq.symm.trans hq')
    obtain rfl : source = source' := Except.ok.inj (hsource.symm.trans hsource')
    rw [hparams, hparams']
    simp only [at?_index_asked, at?_id_asked, inBody?_source_asked, inBody?_query_asked, true_and]
    intro hbare hbare'
    rw [hbare.around, hbare'.around]

/-- A limit of zero and an empty sort list are asked for, and columns that select everything are
not. -/
theorem request_asked_empty :
    let b : Builder := {}
    let env : Environment := b.environment {}
    let wheres : Value := .object [("name", .str "x")]
    let options : Value := .object [("limit", .int 0), ("sort", .object [])]
    let options' : Value := .object [("highlights", .object [])]
    ∃ req req',
      (b.request {} (.str "posts") wheres options (.list [.str "*"]) (.int 0) false).result =
        .ok req ∧
      (b.request {} (.str "posts") wheres options' (.list [.str "*"]) (.int 0) false).result =
        .ok req' ∧
      (∃ q, (Where.compile env none wheres).result = .ok q ∧
        req.params = .object [("index", .str "posts"), ("id", .int 0),
          ("body", .object [("query", q.toValue), ("sort", .list [])]), ("size", .int 0)]) ∧
      Params.inBody? "query" req.params = Params.inBody? "query" req'.params := by
  intro b env wheres options options'
  obtain ⟨req, h⟩ : ∃ req, (b.request {} (.str "posts") wheres options (.list [.str "*"])
      (.int 0) false).result = .ok req := exists_ok_of_isOk (by decide +kernel)
  obtain ⟨req', h'⟩ : ∃ req, (b.request {} (.str "posts") wheres options' (.list [.str "*"])
      (.int 0) false).result = .ok req := exists_ok_of_isOk (by decide +kernel)
  obtain ⟨hasked, hagree⟩ :=
    request_asked b {} (.str "posts") wheres (.list [.str "*"]) (.int 0) false
  have hbare : (registered env false wheres options).Bare := ⟨rfl, rfl⟩
  have hbare' : (registered env false wheres options').Bare := ⟨rfl, rfl⟩
  refine ⟨req, req', h, h', ?_, (hagree h h').2.2.2 hbare hbare'⟩
  obtain ⟨q, o, source, sort, hq, ho, -, hsource, hsort, -, hparams⟩ := hasked h
  refine ⟨q, hq, ?_⟩
  cases ho
  cases hsort
  cases hsource
  rw [hparams, hbare.around]
  rfl

end Builder

end SearchRequest
