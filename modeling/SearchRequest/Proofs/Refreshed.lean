import Mathlib.Data.List.Basic
import SearchRequest.Proofs.CallerMeta
import SearchRequest.Proofs.Refusals
/-
Deleting by query is fetching with a refresh. A request that may write knows one more option, and
everything else about it is that of a request that may not: the same documents, the same metadata
and the same failures (`Builder.delete_refreshes`). The other way round, a refresh is the one thing
that keeps a request from being made that may not write, whatever its value is.

Options with a refresh among them are written `before ++ ("refresh", v) :: after`. Both kinds of
request read them with the same findings, because the key is known to the one and absent for the
other, and so they report the same failure.
-/
namespace SearchRequest

/-! ## Options with a refresh among them -/

namespace Options

open Validated (valid)

/-- Fields are read alike from entries that agree on their keys. -/
theorem ReadsFields.congr {write write' : Bool} {es es' : Entries} {o : Options Value}
    (h : ReadsFields write es o)
    (hagree : ∀ k ∈ sharedKeys, Entries.find? k es' = Entries.find? k es)
    {control : Option WriteControl} (hcontrol : readWrite write' es' = valid control) :
    ReadsFields write' es' { o with write := control } := by
  have hfield : ∀ {α : Type} (check : Value → Validated α) {k : String}, k ∈ sharedKeys →
      Validate.field es' k check = Validate.field es k check := by
    intro α check k hk
    unfold Validate.field Validated.optional
    rw [hagree k hk]
  exact {
    limit := (hfield _ (by decide)).trans h.limit
    skip := (hfield _ (by decide)).trans h.skip
    sort := (hfield _ (by decide)).trans h.sort
    searchAfter := (hfield _ (by decide)).trans h.searchAfter
    prevSearchAfter := (hfield _ (by decide)).trans h.prevSearchAfter
    minScore := (hfield _ (by decide)).trans h.minScore
    filters := (hfield _ (by decide)).trans h.filters
    highlights := (hfield _ (by decide)).trans h.highlights
    randomScore := (hfield _ (by decide)).trans h.randomScore
    multiple := (hfield _ (by decide)).trans h.multiple
    searchOptions := (hfield _ (by decide)).trans h.searchOptions
    control := hcontrol }

section
variable {before after : Entries} {v : Value} {refresh : Option Refresh}
  (hkey : "refresh" ∉ Entries.keys (before ++ after))
  (hv : Validate.nullable Validate.refresh v = valid refresh)
include hkey hv

theorem field_refresh :
    Validate.field (before ++ ("refresh", v) :: after) "refresh" Validate.refresh =
      valid refresh := by
  have hbefore : "refresh" ∉ Entries.keys before := by
    intro hmem
    rw [Entries.keys_append] at hkey
    exact hkey (List.mem_append_left _ hmem)
  exact Validated.optional_eq_valid_iff.2
    (.inr ⟨v, Entries.find?_append_cons hbefore v after, hv⟩)

/-- An accepted refresh adds nothing to what is found in options. -/
theorem findings_refreshed :
    Schema.findings (Schema.options true) (before ++ ("refresh", v) :: after) =
      Schema.findings (Schema.options false) (before ++ after) := by
  have hrefresh : (Schema.free "refresh" (Schema.leaf Validate.refresh)).findings
      (before ++ ("refresh", v) :: after) = ∅ := by
    rw [← Schema.findings_optional (Schema.findings_leaf Validate.knowsAll_refresh)]
    have hread := field_refresh hkey hv
    unfold Validate.field at hread
    rw [hread]
    rfl
  have hother : ∀ k ∈ Entries.keys (before ++ after), k ≠ "refresh" := by
    intro k hk heq
    exact hkey (heq ▸ hk)
  have hknown : ∀ k ∈ Entries.keys (before ++ after),
      (!(Options.keys true).contains k) = !(Options.keys false).contains k := by
    intro k hk
    have hne : k ≠ "refresh" := hother k hk
    simp [Options.keys, hne]
  have hunknown : (Entries.keys (before ++ ("refresh", v) :: after)).filter
        (!(Options.keys true).contains ·) =
      (Entries.keys (before ++ after)).filter (!(Options.keys false).contains ·) := by
    rw [← List.filter_congr hknown, Entries.keys_append, Entries.keys_append]
    have hcons : Entries.keys (("refresh", v) :: after) = "refresh" :: Entries.keys after := rfl
    rw [hcons, List.filter_append, List.filter_append, List.filter_cons_of_neg (by decide)]
  have hshared : Schema.options true = Schema.options false ++
      [Schema.free "refresh" (Schema.leaf Validate.refresh)] := rfl
  have hfields : ∀ f ∈ Schema.options false,
      f.findings (before ++ ("refresh", v) :: after) = f.findings (before ++ after) := by
    intro f hf
    have hne : f.key ≠ "refresh" := by
      intro heq
      have hmem : f.key ∈ (Schema.options false).map Schema.Field.key := List.mem_map_of_mem hf
      rw [heq] at hmem
      exact absurd hmem (by decide)
    exact Schema.Field.findings_congr (Entries.find?_among hne before after v)
  have hnothing : ∀ found : Findings, ∅ ++ found = found := fun _ => rfl
  unfold Schema.findings
  rw [Schema.keys_options, Schema.keys_options, hunknown, hshared, List.foldr_append,
    List.foldr_cons, List.foldr_nil, hrefresh, hnothing]
  refine List.foldr_ext _ _ _ fun f hf found => ?_
  rw [hfields f hf]

/-- A request that may write reads what any other reads without the refresh, and the refresh. -/
theorem read_refreshed :
    read true (.object (before ++ ("refresh", v) :: after)) =
      (read false (.object (before ++ after))).map fun o => { o with write := some ⟨refresh⟩ } := by
  cases hread : read false (.object (before ++ after)) with
  | error e =>
    refine read_error_iff.2 ?_
    rw [findings_refreshed hkey hv]
    exact read_error_iff.1 hread
  | ok o =>
    have hreads : Reads false (before ++ after) o := readEntries_eq_ok_iff.1 hread
    have hagree : ∀ k ∈ sharedKeys, Entries.find? k (before ++ ("refresh", v) :: after) =
        Entries.find? k (before ++ after) := by
      intro k hk
      have hne : k ≠ "refresh" := by
        rintro rfl
        exact absurd hk (by decide)
      exact Entries.find?_among hne before after v
    have hcontrol : readWrite true (before ++ ("refresh", v) :: after) =
        valid (some ⟨refresh⟩) := readWrite_eq (field_refresh hkey hv) true
    refine readEntries_eq_ok_iff.2 ⟨hreads.toReadsFields.congr hagree hcontrol, ?_⟩
    have hshared : ∀ e ∈ before ++ after, e.1 ∈ sharedKeys ++ ["refresh"] := by
      intro e he
      have hknown : e.1 ∈ sharedKeys := hreads.keys e he
      exact List.mem_append_left _ hknown
    intro e he
    show e.1 ∈ sharedKeys ++ ["refresh"]
    rcases List.mem_append.1 he with he | he
    · exact hshared e (List.mem_append_left _ he)
    · rcases List.mem_cons.1 he with rfl | he
      · exact List.mem_append_right _ (List.mem_singleton.2 rfl)
      · exact hshared e (List.mem_append_right _ he)

end

/-- A request that may not write refuses entries with a refresh that it reads without it. -/
theorem read_refuses {es : Entries} {o : Options Value}
    (h : read false (.object (Entries.erase "refresh" es)) = .ok o)
    (hkey : "refresh" ∈ Entries.keys es) :
    read false (.object es) = .error (.unknownOption "refresh") := by
  have hreads : Reads false (Entries.erase "refresh" es) o := readEntries_eq_ok_iff.1 h
  have hagree : ∀ k ∈ sharedKeys,
      Entries.find? k es = Entries.find? k (Entries.erase "refresh" es) := by
    intro k hk
    have hne : k ≠ "refresh" := by
      rintro rfl
      exact absurd hk (by decide)
    exact (Entries.find?_erase_other hne es).symm
  have hfields : ReadsFields false es { o with write := none } :=
    hreads.toReadsFields.congr hagree rfl
  refine hfields.refuses (fun e he => ?_) hkey
  by_cases hrefresh : e.1 = "refresh"
  · exact .inr hrefresh
  · have hleft : e ∈ Entries.erase "refresh" es :=
      List.mem_filter.2 ⟨he, decide_eq_true hrefresh⟩
    exact .inl (hreads.keys e hleft)

end Options

/-! ## Requests -/

namespace Builder

/-- What a refresh adds to a document. -/
def refreshEntries (refresh : Option Refresh) : Entries :=
  Entries.ofOption "refresh" (refresh.map Refresh.toValue)

/-- How options are set apart from their caller metadata depends on the metadata alone. -/
theorem exists_setApart {es es' : Entries}
    (h : Entries.find? Params.metaKey es' = Entries.find? Params.metaKey es) :
    ∃ setApart : Compiled Unit,
      prepareOptions (.object es) =
        (do setApart; return .object (Entries.erase Params.metaKey es)) ∧
      prepareOptions (.object es') =
        (do setApart; return .object (Entries.erase Params.metaKey es')) := by
  have hplain : ∀ es : Entries, Options.plain? (.object es) = .ok (.object es) := fun _ => rfl
  simp only [prepareOptions, hplain, Params.splitMeta, h]
  cases Params.metaRows (Entries.find? Params.metaKey es) with
  | error m => exact ⟨.fail (.misuse m), rfl, rfl⟩
  | ok rows => exact ⟨stash rows, rfl, rfl⟩

/-- A refresh is the last entry of a document. -/
theorem mergeEntries_refreshed (index id q : Value) (source : Option Value) (c : CompiledOptions)
    (hrefresh : c.refresh = none) (refresh : Option Refresh) :
    let start := heading index id ++
      [("body", .object ([("query", q)] ++ Entries.ofOption "_source" source))]
    Params.mergeEntries start { c with refresh }.params =
      Params.mergeEntries start c.params ++ refreshEntries refresh := by
  intro start
  have hheading : ∀ k ∈ Entries.keys (heading index id), k ∈ ["index", "id"] :=
    fun k hk => (keys_heading_sublist index id).subset hk
  have hbody : ∀ k ∈ Entries.keys ([("query", q)] ++ Entries.ofOption "_source" source),
      k ∈ ["query", "_source"] := by
    intro k hk
    rw [Entries.keys_append] at hk
    exact ((List.Sublist.refl ["query"]).append
      (Entries.keys_ofOption_sublist "_source" source)).subset hk
  have henvelope : ({ c with refresh } : CompiledOptions).envelope =
      c.envelope ++ refreshEntries refresh := by
    simp [CompiledOptions.envelope, refreshEntries, hrefresh, Entries.ofOption]
  rw [Params.mergeEntries_params _ hheading hbody, Params.mergeEntries_params _ hheading hbody,
    henvelope]
  simp only [List.append_assoc, List.cons_append]
  rfl

section
variable {before after : Entries} {v : Value} {refresh : Option Refresh}
  (hkey : "refresh" ∉ Entries.keys (before ++ after))
  (hv : Validate.nullable Validate.refresh v = .valid refresh)
include hkey hv

/-- The document that is put together from options with a refresh is that without it, and the
refresh at its end. -/
theorem assemble_refreshed (env : Environment) (index id columns q : Value) :
    assemble env true (heading index id) [("query", q)] columns
        (.object (before ++ ("refresh", v) :: after)) =
      (· ++ refreshEntries refresh) <$>
        assemble env false (heading index id) [("query", q)] columns
          (.object (before ++ after)) := by
  have hok : ∀ {α : Type} (a : α), (.ofExcept (.ok a) : Compiled α) = pure a := fun _ => rfl
  cases hsource : sourceEntries columns with
  | error e =>
    simp only [assemble, hsource]
    rfl
  | ok entries =>
    obtain ⟨source, -, rfl⟩ := sourceEntries_ok hsource
    cases hread : Options.read false (.object (before ++ after)) with
    | error e =>
      simp only [assemble, Options.compile, hsource, Options.read_refreshed hkey hv, hread,
        Except.map]
      rfl
    | ok o =>
      have hwrite : o.write = none := by
        have hsome := Options.isSome_write_of_read hread
        simpa using hsome
      simp only [assemble, Options.compile, hsource, Options.read_refreshed hkey hv, hread,
        Except.map, Options.compileTyped, hok, map_bind, bind_assoc, pure_bind, map_pure, hwrite]
      refine bind_congr fun sort => bind_congr fun _ => congrArg pure ?_
      exact mergeEntries_refreshed index id q source
        { size := o.limit
          start := o.skip
          sort
          searchAfter := o.searchAfter
          minScore := o.minScore
          highlight := o.highlights } rfl refresh

end

end Builder

/-- A request that is another one with a refresh: it logs the same and fails in the same way, and
its document has the refresh at its end, or nothing more when there is none. -/
structure Refreshed (refresh : Option Refresh) (plain refreshed : Requested) : Prop where
  log : refreshed.effects = plain.effects
  fails : ∀ e, refreshed.result = .error e ↔ plain.result = .error e
  builds : ∀ req, plain.result = .ok req → ∃ es, req.params = .object es ∧
    "refresh" ∉ Entries.keys es ∧
    refreshed.result = .ok ⟨.object (es ++ Builder.refreshEntries refresh), req.stash⟩

/-- A request that fails because it does not know an option. -/
def Requested.RefusesOption (location : String) (r : Requested) : Prop :=
  ∃ e report, r.result = .error e ∧ e.report? = some report ∧
    report.kind = .unrecognizedOption ∧
    Entries.find? "option" report.details = some (.str location)

namespace Builder

/-- A document without a refresh whose query can be wrapped. -/
def Refreshable (es : Entries) : Prop :=
  "refresh" ∉ Entries.keys es ∧ ∃ heading q rest more, "body" ∉ Entries.keys heading ∧
    q.truthy = true ∧ es = heading ++ ("body", .object (("query", q) :: rest)) :: more

/-- Wrapping the query leaves what stands at the end of the document. -/
theorem finish_refreshed {c : Compiled Entries}
    (h : ∀ es, c.result = .ok es → Refreshable es) (s : Settings) (trace : String)
    (refresh : Option Refresh) :
    Refreshed refresh (finish s trace c)
      (finish s trace ((· ++ refreshEntries refresh) <$> c)) := by
  have hresult : ((· ++ refreshEntries refresh) <$> c).result =
      c.result.map (· ++ refreshEntries refresh) := Outcome.result_bind_pure c _
  have heffects : ((· ++ refreshEntries refresh) <$> c).effects = c.effects :=
    Outcome.effects_bind_pure c _
  cases hc : c.result with
  | error e =>
    rw [hc] at hresult
    have hrefreshed : finish s trace ((· ++ refreshEntries refresh) <$> c) =
        ⟨c.effects.log, .error e⟩ := by
      simp only [finish, hresult, heffects, Except.map]
    have hplain : finish s trace c = ⟨c.effects.log, .error e⟩ := by
      simp only [finish, hc]
    rw [hrefreshed, hplain]
    refine ⟨rfl, fun _ => Iff.rfl, fun req hreq => ?_⟩
    cases hreq
  | ok es =>
    obtain ⟨hfresh, heading, q, rest, more, hbody, hq, rfl⟩ := h es hc
    rw [hc] at hresult
    let r := Registry.absorb {} c.effects
    let wrapped (end? : Entries) : Value :=
      .object (heading ++ ("body", .object (("query", r.around q) :: rest)) :: (more ++ end?))
    have hwrap : ∀ end? : Entries, (Params.wrap (.object
        (heading ++ ("body", .object (("query", q) :: rest)) :: (more ++ end?))) r).1 =
          .ok (wrapped end?) := fun end? => Params.wrap_document hbody hq rest (more ++ end?) r
    have hrefreshed : finish s trace ((· ++ refreshEntries refresh) <$> c) =
        ⟨c.effects.log ++ traced s trace,
          .ok ⟨wrapped (refreshEntries refresh), r.stash⟩⟩ := by
      have hmore := hwrap (refreshEntries refresh)
      simp only [finish, hresult, heffects, Except.map, List.append_assoc, List.cons_append]
      simp only [r] at hmore
      rw [hmore]
    have hplain : finish s trace c =
        ⟨c.effects.log ++ traced s trace, .ok ⟨wrapped [], r.stash⟩⟩ := by
      have hnone := hwrap []
      rw [List.append_nil] at hnone
      simp only [finish, hc]
      simp only [r] at hnone
      rw [hnone]
    rw [hrefreshed, hplain]
    have hmade : ∀ {log : List LogRecord} {req : Request} {e : Error},
        (⟨log, .ok req⟩ : Requested).result ≠ .error e := by
      intro log req e h
      cases h
    refine ⟨rfl, fun e => iff_of_false hmade hmade, fun req hreq => ?_⟩
    cases hreq
    refine ⟨_, rfl, ?_, ?_⟩
    · rw [List.append_nil, Entries.keys_append]
      rw [Entries.keys_append] at hfresh
      exact hfresh
    · rw [List.append_nil, List.append_assoc, List.cons_append]

theorem assemble_refreshable {env : Environment} {index id columns options : Value} {q : Query}
    {es : Entries} (h : (assemble env false (heading index id) [("query", q.toValue)] columns
      options).result = .ok es) : Refreshable es := by
  obtain ⟨c, source, hc, -, rfl, -⟩ := assemble_contents h
  obtain ⟨o, ho, hc'⟩ := Outcome.result_bind_ok_iff.1 hc
  obtain ⟨sort, -, hc''⟩ := Outcome.result_bind_ok_iff.1 hc'
  cases hc''
  have hwrite : o.write = none := by
    have hsome := Options.isSome_write_of_read ho
    simpa using hsome
  have hheading : ∀ k ∈ Entries.keys (heading index id), k ∈ ["index", "id"] :=
    fun k hk => (keys_heading_sublist index id).subset hk
  refine ⟨?_, _, _, _, _, fun hk => absurd (hheading _ hk) (by decide), q.truthy_toValue, rfl⟩
  -- Beside the body there is only the heading and the paging.
  have henvelope : Entries.find? "refresh" ({
        size := o.limit
        start := o.skip
        refresh := o.write.bind WriteControl.refresh
        sort
        searchAfter := o.searchAfter
        minScore := o.minScore
        highlight := o.highlights } : CompiledOptions).envelope = none := by
    simp [CompiledOptions.envelope, Entries.find?_append, Entries.find?_ofOption, hwrite]
  have hbody : "refresh" ≠ "body" := by decide
  intro hk
  rw [Entries.keys_append] at hk
  rcases List.mem_append.1 hk with hk | hk
  · exact absurd (hheading _ hk) (by decide)
  · rcases List.mem_cons.1 hk with hk | hk
    · exact hbody hk
    · exact Entries.find?_eq_none_iff.1 henvelope hk

section
variable {before after : Entries} {v : Value} {refresh : Option Refresh}
  (hkey : "refresh" ∉ Entries.keys (before ++ after))
  (hv : Validate.nullable Validate.refresh v = .valid refresh)
include hkey hv

/-- A request that may write, with a refresh in its options, is the one that may not write, without
it. -/
theorem request_refreshed (b : Builder) (s : Settings) (index wheres columns id : Value) :
    Refreshed refresh
      (b.request s index wheres (.object (before ++ after)) columns id false)
      (b.request s index wheres (.object (before ++ ("refresh", v) :: after)) columns id true) := by
  have hmeta : Entries.find? Params.metaKey (before ++ ("refresh", v) :: after) =
      Entries.find? Params.metaKey (before ++ after) :=
    Entries.find?_among (by decide) before after v
  obtain ⟨setApart, hplain, hrefreshed⟩ := exists_setApart hmeta
  have herase : Entries.erase Params.metaKey (before ++ ("refresh", v) :: after) =
      Entries.erase Params.metaKey before ++
        ("refresh", v) :: Entries.erase Params.metaKey after := by
    rw [Entries.erase_append, Entries.erase_cons_other (by decide)]
  have hkey' : "refresh" ∉ Entries.keys
      (Entries.erase Params.metaKey before ++ Entries.erase Params.metaKey after) := by
    rw [← Entries.erase_append, Entries.mem_keys_erase]
    exact fun h => hkey h.2
  have hassemble := assemble_refreshed hkey' hv (b.environment s) index id columns
  unfold request
  rw [hrefreshed, hplain, herase, Entries.erase_append]
  simp only [bind_assoc, pure_bind, hassemble, ← map_bind]
  refine finish_refreshed (fun es hes => ?_) s _ refresh
  obtain ⟨-, -, hes₁⟩ := Outcome.result_bind_ok_iff.1 hes
  obtain ⟨q, -, hes₂⟩ := Outcome.result_bind_ok_iff.1 hes₁
  exact assemble_refreshable hes₂

end

/-! ## A refresh where it is not known -/

/-- Where one compile succeeds, the other fails for the refresh. -/
def FailsForRefresh {α : Type} (c c' : Compiled α) : Prop :=
  ∀ a, c.result = .ok a → c'.result = .error (.unknownOption "refresh")

theorem FailsForRefresh.bind {α β : Type} (x : Compiled α) {f f' : α → Compiled β}
    (h : ∀ a, FailsForRefresh (f a) (f' a)) : FailsForRefresh (x >>= f) (x >>= f') := by
  intro b hb
  obtain ⟨a, ha, hfa⟩ := Outcome.result_bind_ok_iff.1 hb
  rw [Outcome.bind_ok ha]
  exact h a b hfa

theorem FailsForRefresh.finish {c c' : Compiled Entries} (h : FailsForRefresh c c') {s : Settings}
    {trace : String} {req : Request} (hreq : (finish s trace c).result = .ok req) :
    (Builder.finish s trace c').RefusesOption "refresh" := by
  obtain ⟨es, -, hes, -, -⟩ := finish_ok hreq
  refine ⟨.unknownOption "refresh", _, ?_, rfl, rfl, rfl⟩
  simp only [Builder.finish, h es hes]

section
variable {es : Entries} (hkey : "refresh" ∈ Entries.keys es)
include hkey

theorem assemble_failsForRefresh (env : Environment) (heading body : Entries) (columns : Value) :
    FailsForRefresh
      (assemble env false heading body columns (.object (Entries.erase "refresh" es)))
      (assemble env false heading body columns (.object es)) := by
  refine .bind _ fun source document hdocument => ?_
  obtain ⟨c, hc, -⟩ := Outcome.result_bind_ok_iff.1 hdocument
  obtain ⟨o, ho, -⟩ := Outcome.result_bind_ok_iff.1 hc
  simp only [Options.compile, Options.read_refuses ho hkey]
  rfl

/-- Two compiles that go on alike with options, of which only the second have a refresh. -/
theorem prepareOptions_failsForRefresh {α : Type} {f : Value → Compiled α}
    (h : ∀ {es : Entries}, "refresh" ∈ Entries.keys es →
      FailsForRefresh (f (.object (Entries.erase "refresh" es))) (f (.object es))) :
    FailsForRefresh (prepareOptions (.object (Entries.erase "refresh" es)) >>= f)
      (prepareOptions (.object es) >>= f) := by
  have hmeta : Entries.find? Params.metaKey es =
      Entries.find? Params.metaKey (Entries.erase "refresh" es) :=
    (Entries.find?_erase_other (by decide) es).symm
  obtain ⟨setApart, hwithout, hwith⟩ := exists_setApart hmeta
  rw [hwithout, hwith, Entries.erase_comm]
  simp only [bind_assoc, pure_bind]
  exact .bind setApart fun _ => h (Entries.mem_keys_erase.2 ⟨by decide, hkey⟩)

theorem request_refusesRefresh {b : Builder} {s : Settings} {index wheres columns id : Value}
    {req : Request} (h : (b.request s index wheres (.object (Entries.erase "refresh" es)) columns id
      false).result = .ok req) :
    (b.request s index wheres (.object es) columns id false).RefusesOption "refresh" := by
  refine FailsForRefresh.finish ?_ h
  refine prepareOptions_failsForRefresh hkey fun hkey' => .bind _ fun q => ?_
  exact assemble_failsForRefresh hkey' _ _ _ _

theorem search_refusesRefresh {b : Builder} {s : Settings}
    {index query searchOptions wheres fields columns : Value} {req : Request}
    (h : (b.search s index query searchOptions wheres (.object (Entries.erase "refresh" es)) fields
      columns).result = .ok req) :
    (b.search s index query searchOptions wheres (.object es) fields columns).RefusesOption
      "refresh" := by
  refine FailsForRefresh.finish (.bind _ fun so => ?_) h
  cases so with
  | object so =>
    refine prepareOptions_failsForRefresh hkey fun hkey' => ?_
    refine .bind _ fun ps => .bind _ fun t => .bind _ fun q => ?_
    exact assemble_failsForRefresh hkey' _ _ _ _
  | _ => exact fun _ hfail => nomatch hfail

/-- No request is made from options with a refresh that may not write. -/
theorem not_delivers {b : Builder} {s : Settings} {req : Request} {callerMeta : Entries}
    {wheres : Value} {place : Option Where → Option Where} :
    ¬ b.Delivers s req callerMeta wheres (.object es) false place := by
  rintro ⟨_, _, _, o, -, -, -, hread, -⟩
  have hreads : Options.Reads false (Entries.erase Params.metaKey es) o :=
    Options.readEntries_eq_ok_iff.1 hread
  have hkey' : "refresh" ∈ Entries.keys (Entries.erase Params.metaKey es) :=
    Entries.mem_keys_erase.2 ⟨by decide, hkey⟩
  exact Bool.false_ne_true (hreads.eq_true hkey')

end

/-- **Deleting by query is fetching with a refresh.** Wherever a refresh that is accepted stands
among the options, the deletion is the fetch request without it, with the same metadata and the same
failures, and has the refresh in its document unless that is null. No fetch or search request is made
with a refresh in its options, and one that is made without it is refused for it. -/
theorem delete_refreshes (b : Builder) (s : Settings) {before after : Entries} {v : Value}
    {refresh : Option Refresh} (hkey : "refresh" ∉ Entries.keys (before ++ after))
    (hv : Validate.nullable Validate.refresh v = .valid refresh) :
    (∀ index wheres : Value, Refreshed refresh
      (b.request s index wheres (.object (before ++ after)) .null .null false)
      (b.delete s index wheres (.object (before ++ ("refresh", v) :: after)) .null)) ∧
    ∀ es : Entries, "refresh" ∈ Entries.keys es →
      (∀ index wheres columns id : Value,
        (∀ req, (b.request s index wheres (.object es) columns id false).result ≠ .ok req) ∧
        ((∃ req, (b.request s index wheres (.object (Entries.erase "refresh" es)) columns id
            false).result = .ok req) →
          (b.request s index wheres (.object es) columns id false).RefusesOption "refresh")) ∧
      ∀ index query searchOptions wheres fields columns : Value,
        (∀ req, (b.search s index query searchOptions wheres (.object es) fields columns).result ≠
          .ok req) ∧
        ((∃ req, (b.search s index query searchOptions wheres
            (.object (Entries.erase "refresh" es)) fields columns).result = .ok req) →
          (b.search s index query searchOptions wheres (.object es) fields columns).RefusesOption
            "refresh") := by
  refine ⟨fun index wheres => request_refreshed hkey hv b s index wheres .null .null, ?_⟩
  intro es hes
  constructor
  · intro index wheres columns id
    refine ⟨fun req h => not_delivers hes (request_delivers h), ?_⟩
    rintro ⟨req, h⟩
    exact request_refusesRefresh hes h
  · intro index query searchOptions wheres fields columns
    constructor
    · intro req h
      obtain ⟨_, _, -, -, hdelivers⟩ := search_delivers h
      exact not_delivers hes hdelivers
    · rintro ⟨req, h⟩
      exact search_refusesRefresh hes h

/-- A refresh between paging and caller metadata, and one that is null where none is known. -/
theorem delete_refreshes_between :
    let before : Entries := [("limit", .int 5)]
    let after : Entries := [("_meta", .object [("page", .int 2)])]
    let wheres : Value := .object [("name", .str "x")]
    let b : Builder := {}
    "refresh" ∉ Entries.keys (before ++ after) ∧
    Validate.nullable Validate.refresh (.str "wait_for") = .valid (some .waitFor) ∧
    (∃ req es, (b.request {} (.str "posts") wheres (.object (before ++ after)) .null .null
        false).result = .ok req ∧ req.params = .object es ∧
      (b.delete {} (.str "posts") wheres
        (.object (before ++ ("refresh", .str "wait_for") :: after)) .null).result =
          .ok ⟨.object (es ++ [("refresh", .str "wait_for")]), req.stash⟩) ∧
    (b.request {} (.str "posts") wheres (.object (("refresh", .null) :: before)) .null .null
      false).RefusesOption "refresh" := by
  intro before after wheres b
  have hkey : "refresh" ∉ Entries.keys (before ++ after) := by decide
  have hv : Validate.nullable Validate.refresh (.str "wait_for") = .valid (some .waitFor) := rfl
  obtain ⟨req, hreq⟩ : ∃ req, (b.request {} (.str "posts") wheres (.object (before ++ after)) .null
      .null false).result = .ok req := exists_ok_of_isOk (by decide +kernel)
  have hwithout : ∃ req, (b.request {} (.str "posts") wheres
      (.object (Entries.erase "refresh" (("refresh", .null) :: before))) .null .null
        false).result = .ok req := exists_ok_of_isOk (by decide +kernel)
  obtain ⟨hdelete, hrefuse⟩ := delete_refreshes b {} hkey hv
  obtain ⟨es, hes, -, hrefreshed⟩ := (hdelete (.str "posts") wheres).builds req hreq
  have hmem : "refresh" ∈ Entries.keys (("refresh", .null) :: before) := by decide
  exact ⟨hkey, hv, ⟨req, es, hreq, hes, hrefreshed⟩,
    ((hrefuse _ hmem).1 (.str "posts") wheres .null .null).2 hwithout⟩

end Builder

end SearchRequest
