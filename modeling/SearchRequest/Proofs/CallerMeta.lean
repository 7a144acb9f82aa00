import SearchRequest.Proofs.Marker
/-
Caller metadata. It is set apart before options are read, and nothing that follows looks at it. With
it and without it a request fails in the same way or builds the same document, and it is handed back
next to the document: `Builder.metadata_comes_back`. What may lie over it there is the marker of the
request and, in a search, the metadata of the options over that of the search options.

One name is taken. Metadata with an entry of that name fails the request
(`Builder.reserved_name_refused`).
-/
namespace SearchRequest

/-! ## Compiles that differ in what they stash -/

/-- Two compiles that are the same except for the metadata that they stash. -/
structure SameButStash {α : Type} (c c' : Compiled α) : Prop where
  result : c.result = c'.result
  clauses : c.effects.clauses = c'.effects.clauses
  function : c.effects.function = c'.effects.function
  log : c.effects.log = c'.effects.log

/-- Two requests that log the same, and fail in the same way or build the same document. -/
structure SameDocument (r r' : Requested) : Prop where
  log : r.effects = r'.effects
  params : r.result.map Request.params = r'.result.map Request.params

theorem SameDocument.params_eq {r r' : Requested} (h : SameDocument r r') {req req' : Request}
    (hr : r.result = .ok req) (hr' : r'.result = .ok req') : req.params = req'.params := by
  have hparams := h.params
  rw [hr, hr'] at hparams
  exact Except.ok.inj hparams

namespace SameButStash

variable {α β : Type} {c c' : Compiled α}

theorem refl (c : Compiled α) : SameButStash c c := ⟨rfl, rfl, rfl, rfl⟩

theorem bind (h : SameButStash c c') {f f' : α → Compiled β}
    (hf : ∀ a, SameButStash (f a) (f' a)) : SameButStash (c >>= f) (c' >>= f') := by
  cases hc : c.result with
  | ok a =>
    have hc' : c'.result = .ok a := h.result ▸ hc
    rw [Outcome.bind_ok hc, Outcome.bind_ok hc']
    refine ⟨(hf a).result, ?_, ?_, ?_⟩
    · simp only [Effects.clauses_append, h.clauses, (hf a).clauses]
    · simp only [Effects.function_append, h.function, (hf a).function]
    · simp only [Effects.log_append, h.log, (hf a).log]
  | error e =>
    have hc' : c'.result = .error e := h.result ▸ hc
    rw [Outcome.bind_error hc, Outcome.bind_error hc']
    exact ⟨rfl, h.clauses, h.function, h.log⟩

theorem finish {c c' : Compiled Entries} (h : SameButStash c c') (s : Settings) (trace : String) :
    SameDocument (Builder.finish s trace c) (Builder.finish s trace c') := by
  have hwrap : ∀ params, (Params.wrap params (Registry.absorb {} c.effects)).1 =
      (Params.wrap params (Registry.absorb {} c'.effects)).1 := by
    refine Params.wrap_congr ?_ ?_
    · simp only [Registry.absorb, h.clauses]
    · simp only [Registry.absorb, h.function]
  unfold Builder.finish
  rw [h.result]
  cases c'.result with
  | error e => exact ⟨h.log, rfl⟩
  | ok es =>
    simp only [hwrap, h.log]
    split <;> exact ⟨rfl, rfl⟩

end SameButStash

/-! ## Metadata set apart -/

theorem Params.metaRows_object (m : Entries) :
    metaRows (some (.object m)) = .ok (Rows.ofEntries m) := by
  cases m <;> rfl

theorem stashable_ofEntries {m : Entries} (h : ∀ k ∈ Entries.keys m, k ∉ reservedMetaNames) :
    stashable (Rows.ofEntries m) = .ok m := by
  have hnone : (m.any fun e => reservedMetaNames.contains e.1) = false := by
    refine List.any_eq_false.2 fun e he hk => ?_
    exact h e.1 (List.mem_map_of_mem he) (List.contains_iff_mem.1 hk)
  simp only [stashable, Rows.entries?_ofEntries, hnone, Bool.false_eq_true, if_false]

theorem stashable_reserved {m : Entries} {k : String} (hk : k ∈ Entries.keys m)
    (hreserved : k ∈ reservedMetaNames) : stashable (Rows.ofEntries m) = .error .kind := by
  obtain ⟨e, he, rfl⟩ := List.mem_map.1 hk
  have hany : (m.any fun e => reservedMetaNames.contains e.1) = true :=
    List.any_eq_true.2 ⟨e, he, List.contains_iff_mem.2 hreserved⟩
  simp only [stashable, Rows.entries?_ofEntries, hany, if_true]

/-- Options hold caller metadata, a mapping in which no name is taken. -/
structure Options.HoldsMeta (es m : Entries) : Prop where
  held : Entries.find? Params.metaKey es = some (.object m)
  nodup : (Entries.keys m).Nodup
  free : ∀ k ∈ Entries.keys m, k ∉ reservedMetaNames

namespace Builder

theorem prepareOptions_held {es m : Entries}
    (held : Entries.find? Params.metaKey es = some (.object m)) :
    prepareOptions (.object es) = do
      stash (Rows.ofEntries m)
      return .object (Entries.erase Params.metaKey es) := by
  have hplain : Options.plain? (.object es) = .ok (.object es) := rfl
  simp only [prepareOptions, hplain, Params.splitMeta, held, Params.metaRows_object, Except.map]

theorem stash_ofEntries {m : Entries} (h : ∀ k ∈ Entries.keys m, k ∉ reservedMetaNames) :
    stash (Rows.ofEntries m) = .perform { stashed := m } := by
  cases m with
  | nil => rfl
  | cons e m =>
    have hempty : (Rows.ofEntries (e :: m)).isEmpty = false := rfl
    simp only [stash, hempty, Bool.false_eq_true, if_false, stashable_ofEntries h]

theorem stash_reserved {m : Entries} {k : String} (hk : k ∈ Entries.keys m)
    (hreserved : k ∈ reservedMetaNames) :
    stash (Rows.ofEntries m) = .fail (.misuse .kind) := by
  cases m with
  | nil => cases hk
  | cons e m =>
    have hempty : (Rows.ofEntries (e :: m)).isEmpty = false := rfl
    simp only [stash, hempty, Bool.false_eq_true, if_false, stashable_reserved hk hreserved]

end Builder

namespace Options

theorem metaKey_notMem_erase (es : Entries) :
    Params.metaKey ∉ Entries.keys (Entries.erase Params.metaKey es) := by
  simp [Entries.keys, Entries.erase]

theorem withoutMeta_erase (es : Entries) :
    withoutMeta (.object (Entries.erase Params.metaKey es)) = withoutMeta (.object es) := by
  simp [withoutMeta, plain, Entries.erase]

theorem callerMeta_erase (es : Entries) :
    callerMeta (.object (Entries.erase Params.metaKey es)) = [] := by
  have hnone : Entries.find? Params.metaKey (Entries.erase Params.metaKey es) = none :=
    Entries.find?_eq_none_iff.2 (metaKey_notMem_erase es)
  simp [callerMeta, plain, hnone, Params.metaRows, Rows.entries?]

namespace HoldsMeta

variable {es m : Entries} (h : HoldsMeta es m)
include h

theorem callerMeta_eq : callerMeta (.object es) = m := by
  simp [callerMeta, plain, h.held, Params.metaRows_object, Rows.entries?_ofEntries]

theorem find?_overlay (k : String) :
    Entries.find? k (Entries.overlay [] m) = Entries.find? k m := by
  rw [Entries.overlay_of_new h.nodup (fun _ _ => List.not_mem_nil), List.nil_append]

/-- Setting metadata apart only stashes it. -/
theorem prepareOptions_same :
    SameButStash (Builder.prepareOptions (.object es))
      (Builder.prepareOptions (.object (Entries.erase Params.metaKey es))) := by
  rw [Builder.prepareOptions_held h.held, Builder.stash_ofEntries h.free,
    Builder.prepareOptions_object (metaKey_notMem_erase es)]
  exact ⟨rfl, rfl, rfl, rfl⟩

end HoldsMeta

end Options

/-! ## Metadata handed back -/

/-- A request with metadata that a caller gives is the same as the bare one without it. Under each
key it hands back the marker of the request, or else what was stashed after the given metadata, the
metadata, or what was stashed before it; the bare one hands back the same without the metadata. -/
structure HandsBack (own : Option Value → Prop) (after given before : Entries)
    (run bare : Requested) : Prop extends SameDocument run bare where
  stash : ∀ {req req' : Request}, run.result = .ok req → bare.result = .ok req' →
    ∃ marker, own marker ∧ ∀ k,
      Entries.find? k req.stash =
        (if Options.prevSearchAfterKey = k then marker else none).or
          ((Entries.find? k after).or ((Entries.find? k given).or (Entries.find? k before))) ∧
      Entries.find? k req'.stash =
        (if Options.prevSearchAfterKey = k then marker else none).or
          ((Entries.find? k after).or (Entries.find? k before))

namespace Builder

/-- The marker that a request has of its own: that of its options, or else that of the last nested
search that has one. -/
def OwnMarker (wheres options : Value) (write : Bool) (marker : Option Value) : Prop :=
  ∃ t nested top, (Where.ofArgument wheres).result = .ok t ∧
    (Visited.tree? t).mapM Options.ofNested = .ok nested ∧
    Options.read write (Options.withoutMeta options) = .ok top ∧
    marker = Options.lastMarker (nested ++ [top])

theorem OwnMarker.unique {wheres options : Value} {write : Bool} {marker marker' : Option Value}
    (h : OwnMarker wheres options write marker) (h' : OwnMarker wheres options write marker') :
    marker = marker' := by
  obtain ⟨t, nested, top, ht, hnested, htop, rfl⟩ := h
  obtain ⟨t', nested', top', ht', hnested', htop', rfl⟩ := h'
  obtain rfl := Except.ok.inj (ht.symm.trans ht')
  obtain rfl := Except.ok.inj (hnested.symm.trans hnested')
  obtain rfl := Except.ok.inj (htop.symm.trans htop')
  rfl

theorem ownMarker_erase (wheres : Value) (es : Entries) (write : Bool) :
    OwnMarker wheres (.object (Entries.erase Params.metaKey es)) write =
      OwnMarker wheres (.object es) write := by
  funext marker
  rw [OwnMarker, Options.withoutMeta_erase, OwnMarker]

end Builder

/-- A request hands back its own marker, and under the other keys metadata. -/
structure HandsBackOver (own : Option Value → Prop) (metadata : Entries) (r : Requested) :
    Prop where
  stash : ∀ {req : Request}, r.result = .ok req → ∃ marker, own marker ∧ ∀ k,
    Entries.find? k req.stash = (if Options.prevSearchAfterKey = k then marker else none).or
      (Entries.find? k (Entries.overlay [] metadata))

/-- Two requests that build the same document hand back the same marker. -/
theorem HandsBackOver.handsBack {own : Option Value → Prop} {run bare : Requested}
    {metadata metadata' after given before : Entries} (hrun : HandsBackOver own metadata run)
    (hbare : HandsBackOver own metadata' bare) (hsame : SameDocument run bare)
    (hunique : ∀ {marker marker'}, own marker → own marker' → marker = marker')
    (hmetadata : ∀ k, Entries.find? k (Entries.overlay [] metadata) =
      (Entries.find? k after).or ((Entries.find? k given).or (Entries.find? k before)))
    (hmetadata' : ∀ k, Entries.find? k (Entries.overlay [] metadata') =
      (Entries.find? k after).or (Entries.find? k before)) :
    HandsBack own after given before run bare := by
  refine ⟨hsame, fun hreq hreq' => ?_⟩
  obtain ⟨marker, hmarker, hstash⟩ := hrun.stash hreq
  obtain ⟨marker', hmarker', hstash'⟩ := hbare.stash hreq'
  obtain rfl := hunique hmarker hmarker'
  exact ⟨marker, hmarker, fun k => ⟨by rw [hstash, hmetadata], by rw [hstash', hmetadata']⟩⟩

namespace Builder

theorem Delivers.exists_ownMarker {b : Builder} {s : Settings} {req : Request}
    {callerMeta : Entries} {wheres options : Value} {write : Bool}
    {place : Option Where → Option Where}
    (h : b.Delivers s req callerMeta wheres options write place) :
    ∃ marker, OwnMarker wheres options write marker ∧ ∀ k, Entries.find? k req.stash =
      (if Options.prevSearchAfterKey = k then marker else none).or
        (Entries.find? k (Entries.overlay [] callerMeta)) := by
  obtain ⟨t, q, nested, top, ht, -, hnested, htop, hdelivers⟩ := h
  exact ⟨_, ⟨t, nested, top, ht, hnested, htop, rfl⟩, hdelivers.find?_stash⟩

section
variable (b : Builder) (s : Settings)

theorem request_handsBackOver (index wheres options columns id : Value) (allowRefresh : Bool) :
    HandsBackOver (OwnMarker wheres options allowRefresh) (Options.callerMeta options)
      (b.request s index wheres options columns id allowRefresh) :=
  ⟨fun hreq => (request_delivers hreq).exists_ownMarker⟩

theorem search_handsBackOver (index query searchOptions wheres options fields columns : Value) :
    HandsBackOver (OwnMarker wheres options false)
      (Options.callerMeta searchOptions ++ Options.callerMeta options)
      (b.search s index query searchOptions wheres options fields columns) := by
  constructor
  intro req hreq
  obtain ⟨_, _, -, -, hdelivers⟩ := search_delivers hreq
  exact hdelivers.exists_ownMarker

/-- A deletion by id has no marker of its own. -/
theorem deleteOne_handsBackOver (index options id : Value) :
    HandsBackOver (· = none) (Options.callerMeta options) (deleteOne s index options id) := by
  constructor
  intro req hreq
  obtain ⟨_, -, rfl⟩ := deleteOne_ok hreq
  exact ⟨none, rfl, fun k => by simp⟩

variable {es m : Entries} (h : Options.HoldsMeta es m)
include h

theorem request_handsBack (index wheres columns id : Value) (allowRefresh : Bool) :
    HandsBack (OwnMarker wheres (.object es) allowRefresh) [] m []
      (b.request s index wheres (.object es) columns id allowRefresh)
      (b.request s index wheres (.object (Entries.erase Params.metaKey es)) columns id
        allowRefresh) := by
  refine (request_handsBackOver ..).handsBack (ownMarker_erase .. ▸ request_handsBackOver ..) ?_
    (·.unique) ?_ ?_
  · exact SameButStash.finish (h.prepareOptions_same.bind fun _ => .refl _) s _
  · intro k
    simp [h.callerMeta_eq, h.find?_overlay, Entries.find?]
  · intro k
    simp [Options.callerMeta_erase, Entries.find?]

/-- Metadata in the options of a search lies over that of its search options. -/
theorem search_handsBack (index query searchOptions wheres fields columns : Value) :
    HandsBack (OwnMarker wheres (.object es) false) [] m
      (Entries.overlay [] (Options.callerMeta searchOptions))
      (b.search s index query searchOptions wheres (.object es) fields columns)
      (b.search s index query searchOptions wheres
        (.object (Entries.erase Params.metaKey es)) fields columns) := by
  refine (search_handsBackOver ..).handsBack (ownMarker_erase .. ▸ search_handsBackOver ..) ?_
    (·.unique) ?_ ?_
  · refine SameButStash.finish (.bind (.refl _) fun so => ?_) s _
    cases so with
    | object so => exact h.prepareOptions_same.bind fun _ => .refl _
    | _ => exact .refl _
  · intro k
    rw [h.callerMeta_eq, Entries.overlay_append, Entries.find?_overlay, h.find?_overlay]
    rfl
  · intro k
    rw [Options.callerMeta_erase, List.append_nil]
    rfl

/-- Metadata in the search options lies under that of the options. -/
theorem search_handsBack_under (index query wheres options fields columns : Value) :
    HandsBack (OwnMarker wheres options false)
      (Entries.overlay [] (Options.callerMeta options)) m []
      (b.search s index query (.object es) wheres options fields columns)
      (b.search s index query (.object (Entries.erase Params.metaKey es)) wheres options fields
        columns) := by
  refine (search_handsBackOver ..).handsBack (search_handsBackOver ..) ?_ (·.unique) ?_ ?_
  · exact SameButStash.finish (h.prepareOptions_same.bind fun _ => .refl _) s _
  · intro k
    rw [h.callerMeta_eq, Entries.overlay_append, Entries.find?_overlay, h.find?_overlay]
    simp [Entries.find?]
  · intro k
    simp [Options.callerMeta_erase, Entries.find?]

theorem deleteOne_handsBack (index id : Value) :
    HandsBack (· = none) [] m [] (deleteOne s index (.object es) id)
      (deleteOne s index (.object (Entries.erase Params.metaKey es)) id) := by
  refine (deleteOne_handsBackOver ..).handsBack (deleteOne_handsBackOver ..) ?_
    (·.trans ·.symm) ?_ ?_
  · have hsame : SameButStash (α := Refresh) (do
          let options ← prepareOptions (.object es)
          let o ← .ofExcept (Options.read true options)
          return (o.write.bind WriteControl.refresh).getD defaultRefresh) (do
          let options ← prepareOptions (.object (Entries.erase Params.metaKey es))
          let o ← .ofExcept (Options.read true options)
          return (o.write.bind WriteControl.refresh).getD defaultRefresh) :=
      h.prepareOptions_same.bind fun _ => .refl _
    unfold deleteOne
    dsimp only
    rw [hsame.result]
    split
    · exact ⟨hsame.log, rfl⟩
    · exact ⟨congrArg (· ++ _) hsame.log, rfl⟩
  · intro k
    simp [h.callerMeta_eq, h.find?_overlay, Entries.find?]
  · intro k
    simp [Options.callerMeta_erase, Entries.find?]

end

/-- **Caller metadata is inert and comes back.** A request, a search and a deletion with metadata in
their options, or in the search options, are what they are without it, and hand the metadata back.
Only the marker of the request lies over it, or in a search the metadata of the options over that of
the search options. -/
theorem metadata_comes_back (b : Builder) (s : Settings) {es m : Entries}
    (h : Options.HoldsMeta es m) :
    let options : Value := .object es
    let bare : Value := .object (Entries.erase Params.metaKey es)
    (∀ (index wheres columns id : Value) (allowRefresh : Bool),
      HandsBack (OwnMarker wheres options allowRefresh) [] m []
        (b.request s index wheres options columns id allowRefresh)
        (b.request s index wheres bare columns id allowRefresh)) ∧
    (∀ index query searchOptions wheres fields columns : Value,
      HandsBack (OwnMarker wheres options false) [] m
        (Entries.overlay [] (Options.callerMeta searchOptions))
        (b.search s index query searchOptions wheres options fields columns)
        (b.search s index query searchOptions wheres bare fields columns)) ∧
    (∀ index query wheres others fields columns : Value,
      HandsBack (OwnMarker wheres others false)
        (Entries.overlay [] (Options.callerMeta others)) m []
        (b.search s index query options wheres others fields columns)
        (b.search s index query bare wheres others fields columns)) ∧
    (∀ index wheres id : Value,
      HandsBack (fun marker => if id.isNull then OwnMarker wheres options true marker
          else marker = none) [] m []
        (b.delete s index wheres options id) (b.delete s index wheres bare id)) := by
  refine ⟨request_handsBack b s h, search_handsBack b s h, search_handsBack_under b s h, ?_⟩
  intro index wheres id
  unfold delete
  cases id.isNull with
  | true => exact request_handsBack b s h index wheres .null .null true
  | false => exact deleteOne_handsBack s h index id

/-- A search with metadata in its options and in its search options, with an entry in common and one
that the marker lies over. -/
theorem metadata_comes_back_shared :
    let m : Entries := [("page", .int 2), ("prev_search_after", .int 0)]
    let under : Entries := [("page", .int 1), ("user", .str "a")]
    let es : Entries :=
      [("limit", .int 5), ("_meta", .object m), ("prev_search_after", .list [.int 7])]
    let so : Entries := [("_meta", .object under)]
    let bare : Value := .object [("limit", .int 5), ("prev_search_after", .list [.int 7])]
    let b : Builder := {}
    Options.HoldsMeta es m ∧ Options.HoldsMeta so under ∧
    ∃ req req' req'' : Request,
      (b.search {} .null (.str "x") (.object so) .null (.object es) .null .null).result = .ok req ∧
      (b.search {} .null (.str "x") (.object so) .null bare .null .null).result = .ok req' ∧
      (b.search {} .null (.str "x") (.object []) .null bare .null .null).result = .ok req'' ∧
      req.params = req'.params ∧ req'.params = req''.params ∧
      Entries.find? "page" req.stash = some (.int 2) ∧
      Entries.find? "user" req.stash = some (.str "a") ∧
      Entries.find? "prev_search_after" req.stash = some (.list [.int 7]) := by
  intro m under es so bare b
  have hes : Options.HoldsMeta es m := ⟨rfl, by decide, by decide⟩
  have hso : Options.HoldsMeta so under := ⟨rfl, by decide, by decide⟩
  obtain ⟨req, hreq⟩ : ∃ req, (b.search {} .null (.str "x") (.object so) .null (.object es) .null
      .null).result = .ok req := exists_ok_of_isOk (by decide +kernel)
  obtain ⟨req', hreq'⟩ : ∃ req, (b.search {} .null (.str "x") (.object so) .null bare .null
      .null).result = .ok req := exists_ok_of_isOk (by decide +kernel)
  obtain ⟨req'', hreq''⟩ : ∃ req, (b.search {} .null (.str "x") (.object []) .null bare .null
      .null).result = .ok req := exists_ok_of_isOk (by decide +kernel)
  obtain ⟨-, hover, -, -⟩ := metadata_comes_back b {} hes
  obtain ⟨-, -, hunder, -⟩ := metadata_comes_back b {} hso
  have hover := hover .null (.str "x") (.object so) .null .null .null
  have hunder := hunder .null (.str "x") .null bare .null .null
  obtain ⟨marker, ⟨t, nested, top, ht, hnested, htop, rfl⟩, hstash⟩ := hover.stash hreq hreq'
  cases ht
  cases hnested
  cases htop
  exact ⟨hes, hso, req, req', req'', hreq, hreq', hreq'', hover.params_eq hreq hreq',
    hunder.params_eq hreq' hreq'', (hstash "page").1, (hstash "user").1,
    (hstash "prev_search_after").1⟩

/-- Metadata with an entry of the name that is taken never makes a request, whatever else is
asked for. -/
theorem reserved_name_refused (b : Builder) (s : Settings) {es m : Entries} {k : String}
    (held : Entries.find? Params.metaKey es = some (.object m)) (hk : k ∈ Entries.keys m)
    (hreserved : k ∈ reservedMetaNames) :
    (∀ (index wheres columns id : Value) (allowRefresh : Bool),
      (b.request s index wheres (.object es) columns id allowRefresh).result =
        .error (.misuse .kind)) ∧
    (∀ (index query searchOptions wheres fields columns : Value) (req : Request),
      (b.search s index query searchOptions wheres (.object es) fields columns).result ≠
        .ok req) ∧
    (∀ index query wheres others fields columns : Value,
      (b.search s index query (.object es) wheres others fields columns).result =
        .error (.misuse .kind)) ∧
    (∀ index wheres id : Value,
      (b.delete s index wheres (.object es) id).result = .error (.misuse .kind)) := by
  have hprepare : prepareOptions (.object es) = .fail (.misuse .kind) := by
    rw [prepareOptions_held held, stash_reserved hk hreserved]
    rfl
  have hrequest : ∀ (index wheres columns id : Value) (allowRefresh : Bool),
      (b.request s index wheres (.object es) columns id allowRefresh).result =
        .error (.misuse .kind) := by
    intro index wheres columns id allowRefresh
    rw [request, hprepare]
    rfl
  refine ⟨hrequest, ?search, ?searchOptions, ?delete⟩
  case search =>
    intro index query searchOptions wheres fields columns req hreq
    obtain ⟨es', -, hes, -, -⟩ := finish_ok hreq
    obtain ⟨v, -, hes₁⟩ := Outcome.result_bind_ok_iff.1 hes
    cases v with
    | object so =>
      obtain ⟨_, hoptions, -⟩ := Outcome.result_bind_ok_iff.1 hes₁
      rw [hprepare] at hoptions
      cases hoptions
    | _ => cases hes₁
  case searchOptions =>
    intro index query wheres others fields columns
    rw [search, hprepare]
    rfl
  case delete =>
    intro index wheres id
    unfold delete
    split
    · exact hrequest index wheres .null .null true
    · rw [deleteOne, hprepare]
      rfl

/-- Metadata with one entry, named like the receiver of the call that stashes it. -/
theorem metadata_named_self :
    let options : Value := .object [("_meta", .object [("self", .int 1)])]
    let b : Builder := {}
    (b.request {} (.str "i") .null options .null .null false).result = .error (.misuse .kind) ∧
      ∃ req, (b.request {} (.str "i") .null (.object []) .null .null false).result = .ok req := by
  intro options b
  refine ⟨?_, exists_ok_of_isOk (by decide +kernel)⟩
  exact (reserved_name_refused b {} rfl List.mem_cons_self List.mem_cons_self).1 ..

end Builder

end SearchRequest
