import SearchRequest.Proofs.Contents
import SearchRequest.Proofs.TypedOptions
/-
The marker of the previous page. A request stashes the marker of its options over those of nested
searches, and nothing that it puts into its document stands under the key of the marker. So the
marker comes back to the caller, beside the document and not in it: `Builder.marker_comes_back`.

A deletion by id is the exception. It reads options for their refresh alone.
-/
namespace SearchRequest

/-! ## The marker that counts -/

namespace Options

/-- The marker that counts among those of several options: the last one. -/
def lastMarker (os : List (Options Value)) : Option Value :=
  (os.filterMap (·.prevSearchAfter)).getLast?

theorem lastMarker_append (os os' : List (Options Value)) :
    lastMarker (os ++ os') = (lastMarker os').or (lastMarker os) := by
  simp [lastMarker, List.getLast?_append]

theorem lastMarker_singleton (o : Options Value) : lastMarker [o] = o.prevSearchAfter := by
  cases h : o.prevSearchAfter <;> simp [lastMarker, h]

theorem find?_marker (k : String) (o : Options Value) :
    Entries.find? k (Entries.overlay [] o.marker) =
      if prevSearchAfterKey = k then o.prevSearchAfter else none := by
  have hself : Entries.overlay [] o.marker = o.marker := by
    rw [marker]
    cases o.prevSearchAfter <;> rfl
  rw [hself, marker, Entries.find?_ofOption]

/-- Markers that are laid over each other hold the last one. -/
theorem find?_markers (k : String) (os : List (Options Value)) :
    Entries.find? k (Entries.overlay [] (os.flatMap marker)) =
      if prevSearchAfterKey = k then lastMarker os else none := by
  induction os with
  | nil => simp [Entries.find?, lastMarker]
  | cons o os ih =>
    have hlast : lastMarker (o :: os) = (lastMarker os).or o.prevSearchAfter := by
      rw [← lastMarker_singleton o, ← lastMarker_append]
      rfl
    rw [List.flatMap_cons, Entries.overlay_append, Entries.find?_overlay, ih, find?_marker, hlast]
    split <;> simp

end Options

/-- What a request hands back under a key: the marker that counts, and otherwise caller metadata. -/
theorem Request.Delivers.find?_stash {r : Request} {callerMeta : Entries}
    {nested : List (Options Value)} {top : Options Value} {q : Value}
    (h : r.Delivers callerMeta nested top q) (k : String) :
    Entries.find? k r.stash =
      (if Options.prevSearchAfterKey = k then Options.lastMarker (nested ++ [top]) else none).or
        (Entries.find? k (Entries.overlay [] callerMeta)) := by
  have hmarkers : nested.flatMap Options.marker ++ top.marker =
      (nested ++ [top]).flatMap Options.marker := by simp
  rw [h.stash, hmarkers, Entries.find?_overlay, Options.find?_markers]

/-! ## The keys of a document -/

namespace Params

/-- The keys that a document can have. -/
def documentKeys : List String :=
  ["index", "id", "body", "size", "from", "refresh"]

/-- The keys that the body of a document can have. -/
def bodyKeys : List String :=
  ["highlight", "query", "_source", "sort", "search_after", "min_score"]

/-- A document with only such keys, and with a mapping for a body. -/
structure KeysWithin (es : Entries) : Prop where
  keys : Entries.keys es ⊆ documentKeys
  body : ∀ v, Entries.find? "body" es = some v →
    ∃ body, v = .object body ∧ Entries.keys body ⊆ bodyKeys

namespace KeysWithin

variable {es : Entries} (h : KeysWithin es)
include h

theorem insert {k : String} {v : Value} (hk : k ∈ documentKeys)
    (hv : k = "body" → ∃ body, v = .object body ∧ Entries.keys body ⊆ bodyKeys) :
    KeysWithin (Entries.insert k v es) where
  keys := fun _ hmem =>
    (List.mem_cons.1 (Entries.keys_insert_subset k v es hmem)).elim (· ▸ hk) (h.keys ·)
  body := by
    intro w hw
    rw [Entries.find?_insert] at hw
    split at hw
    · cases hw
      exact hv ‹_›
    · exact h.body w hw

theorem mergeEntry {e : String × Value} (hk : e.1 ∈ documentKeys)
    (hv : e.1 = "body" → ∃ body, e.2 = .object body ∧ Entries.keys body ⊆ bodyKeys) :
    KeysWithin (mergeEntry es e) := by
  unfold Params.mergeEntry
  split
  · rename_i current new hcurrent hnew
    refine h.insert hk fun hbody => ⟨_, rfl, fun k hmem => ?_⟩
    obtain ⟨_, hold, holdKeys⟩ := h.body _ (hbody ▸ hcurrent)
    obtain ⟨_, htop, htopKeys⟩ := hv hbody
    cases hold
    cases hnew.symm.trans htop
    exact (List.mem_append.1 (Entries.keys_overlay_subset current new hmem)).elim (holdKeys ·)
      (htopKeys ·)
  · exact h.insert hk hv

theorem mergeEntries {fragment : Entries} (hkeys : Entries.keys fragment ⊆ documentKeys)
    (hbody : ∀ e ∈ fragment, e.1 = "body" →
      ∃ body, e.2 = .object body ∧ Entries.keys body ⊆ bodyKeys) :
    KeysWithin (mergeEntries es fragment) := by
  induction fragment generalizing es with
  | nil => exact h
  | cons e fragment ih =>
    exact ih (h.mergeEntry (hkeys List.mem_cons_self) (hbody e List.mem_cons_self))
      (fun k hk => hkeys (List.mem_cons_of_mem _ hk))
      fun e' he' => hbody e' (List.mem_cons_of_mem _ he')

theorem mapQuery {f : Value → Value} {params : Value}
    (hparams : mapQuery f (.object es) = .ok params) :
    ∃ es', params = .object es' ∧ KeysWithin es' := by
  obtain ⟨body, hbody, hcurrent⟩ : ∃ body, (Entries.find? "body" es).getD (.object []) =
      .object body ∧ Entries.keys body ⊆ bodyKeys := by
    cases hfind : Entries.find? "body" es with
    | none => exact ⟨[], rfl, List.nil_subset _⟩
    | some v => exact h.body v hfind
  rw [mapQuery_object f hbody] at hparams
  cases hparams
  refine ⟨_, rfl, h.insert (by decide) fun _ => ⟨_, rfl, fun k hk => ?_⟩⟩
  exact (List.mem_cons.1 (Entries.keys_insert_subset _ _ _ hk)).elim (· ▸ by decide) (hcurrent ·)

/-- Wrapping the query brings no key into a document. -/
theorem wrap {r : Registry} {params : Value} (hparams : (wrap (.object es) r).1 = .ok params) :
    ∃ es', params = .object es' ∧ KeysWithin es' := by
  have hclauses : ∀ params₁, (wrapClauses (.object es) r).1 = .ok params₁ →
      ∃ es', params₁ = .object es' ∧ KeysWithin es' := by
    intro params₁ h₁
    cases hempty : r.clauses.isEmpty with
    | true =>
      simp only [wrapClauses, Registry.takeClauses, hempty, if_true] at h₁
      cases h₁
      exact ⟨es, rfl, h⟩
    | false =>
      simp only [wrapClauses, Registry.takeClauses, hempty, Bool.false_eq_true, if_false] at h₁
      exact h.mapQuery h₁
  unfold Params.wrap at hparams
  split at hparams
  · rename_i params₁ r₁ hstep
    obtain ⟨es₁, rfl, hes₁⟩ := hclauses params₁ (congrArg Prod.fst hstep)
    cases hempty : r₁.function.isEmpty with
    | true =>
      simp only [wrapFunction, Registry.takeFunction, hempty, if_true] at hparams
      cases hparams
      exact ⟨es₁, rfl, hes₁⟩
    | false =>
      simp only [wrapFunction, Registry.takeFunction, hempty, Bool.false_eq_true, if_false]
        at hparams
      exact hes₁.mapQuery hparams
  · exact hclauses params hparams

theorem at?_eq_none {k : String} (hk : k ∉ documentKeys) : at? k (.object es) = none :=
  Entries.find?_eq_none_iff.2 fun hmem => hk (h.keys hmem)

theorem inBody?_eq_none {k : String} (hk : k ∉ bodyKeys) : inBody? k (.object es) = none := by
  cases hfind : Entries.find? "body" es with
  | none => simp [inBody?, at?, hfind]
  | some v =>
    obtain ⟨body, rfl, hbody⟩ := h.body v hfind
    have hnone : Entries.find? k body = none :=
      Entries.find?_eq_none_iff.2 fun hmem => hk (hbody hmem)
    simp [inBody?, at?, hfind, hnone]

end KeysWithin

end Params

namespace Builder

open Params (KeysWithin)

theorem assemble_keys {env : Environment} {write : Bool} {index id columns options : Value}
    {body es : Entries} (hbody : Entries.keys body ⊆ ["highlight", "query"])
    (h : (assemble env write (heading index id) body columns options).result = .ok es) :
    KeysWithin es := by
  obtain ⟨source, hsource, hrest⟩ := Outcome.result_bind_ok_iff.1 h
  obtain ⟨c, hc, hes⟩ := Outcome.result_bind_ok_iff.1 hrest
  obtain ⟨columns', -, rfl⟩ := sourceEntries_ok hsource
  cases hes
  have hstart : KeysWithin
      (heading index id ++ [("body", .object (body ++ Entries.ofOption "_source" columns'))]) := by
    constructor
    · rw [Entries.keys_append]
      exact (List.Subset.trans
        ((keys_heading_sublist index id).append (List.Sublist.refl ["body"])).subset (by decide))
    · intro v hv
      rw [Entries.find?_append, find?_body_heading] at hv
      cases hv
      refine ⟨_, rfl, fun k hk => ?_⟩
      rw [Entries.keys_append] at hk
      rcases List.mem_append.1 hk with hk | hk
      · exact (by decide : ["highlight", "query"] ⊆ Params.bodyKeys) (hbody hk)
      · exact (by decide : ["_source"] ⊆ Params.bodyKeys)
          ((Entries.keys_ofOption_sublist _ _).subset hk)
  have henvelope : Entries.keys c.envelope ⊆ ["size", "from", "refresh"] :=
    c.keys_envelope_sublist.subset
  have hcompiled : Entries.keys c.body ⊆ Params.bodyKeys :=
    List.Subset.trans c.keys_body_sublist.subset (by decide)
  refine hstart.mergeEntries (fun k hk => ?_) fun e he hkey => ?_
  · rw [CompiledOptions.params, Entries.keys_append] at hk
    rcases List.mem_append.1 hk with hk | hk
    · exact (by decide : ["size", "from", "refresh"] ⊆ Params.documentKeys) (henvelope hk)
    · split at hk
      · cases hk
      · rw [List.mem_singleton.1 hk]
        exact (by decide : "body" ∈ Params.documentKeys)
  · rcases List.mem_append.1 he with he | he
    · have hmem := henvelope (List.mem_map_of_mem he)
      rw [hkey] at hmem
      exact absurd hmem (by decide)
    · split at he
      · cases he
      · exact List.mem_singleton.1 he ▸ ⟨_, rfl, hcompiled⟩

theorem finish_keys {s : Settings} {trace : String} {c : Compiled Entries} {req : Request}
    (h : (finish s trace c).result = .ok req) (hc : ∀ es, c.result = .ok es → KeysWithin es) :
    ∃ es, req.params = .object es ∧ KeysWithin es := by
  obtain ⟨es, params, hes, hparams, rfl⟩ := finish_ok h
  exact (hc es hes).wrap hparams

theorem request_keys {b : Builder} {s : Settings} {index wheres options columns id : Value}
    {allowRefresh : Bool} {req : Request}
    (h : (b.request s index wheres options columns id allowRefresh).result = .ok req) :
    ∃ es, req.params = .object es ∧ KeysWithin es := by
  refine finish_keys h fun es hes => ?_
  obtain ⟨v, -, hes₁⟩ := Outcome.result_bind_ok_iff.1 hes
  obtain ⟨q, -, hes₂⟩ := Outcome.result_bind_ok_iff.1 hes₁
  have hbody : Entries.keys [("query", q.toValue)] ⊆ ["highlight", "query"] :=
    List.subset_cons_self ..
  exact assemble_keys hbody hes₂

theorem keys_bodyEntries_subset (so : Entries) :
    Entries.keys (Search.bodyEntries so) ⊆ [Search.highlightKey] := by
  unfold Search.bodyEntries
  split
  · split
    · exact List.Subset.refl _
    · exact List.nil_subset _
  · exact List.nil_subset _

theorem search_keys {b : Builder} {s : Settings}
    {index query searchOptions wheres options fields columns : Value} {req : Request}
    (h : (b.search s index query searchOptions wheres options fields columns).result = .ok req) :
    ∃ es, req.params = .object es ∧ KeysWithin es := by
  refine finish_keys h fun es hes => ?_
  obtain ⟨v, -, hes₁⟩ := Outcome.result_bind_ok_iff.1 hes
  cases v with
  | object so =>
    obtain ⟨_, -, hes₂⟩ := Outcome.result_bind_ok_iff.1 hes₁
    obtain ⟨_, -, hes₃⟩ := Outcome.result_bind_ok_iff.1 hes₂
    obtain ⟨_, -, hes₄⟩ := Outcome.result_bind_ok_iff.1 hes₃
    obtain ⟨q, -, hes₅⟩ := Outcome.result_bind_ok_iff.1 hes₄
    refine assemble_keys (fun k hk => ?_) hes₅
    rw [Entries.keys_append] at hk
    rcases List.mem_append.1 hk with hk | hk
    · exact List.mem_singleton.1 (keys_bodyEntries_subset so hk) ▸ by decide
    · exact List.mem_cons_of_mem _ hk
  | _ => cases hes₁

end Builder

/-! ## The marker comes back -/

/-- Options with a marker, and the form in which it comes back: typed options are turned into plain
data, with the values in them. -/
inductive Options.Marked : Value → Value → Prop
  | mapping {es : Entries} {v : Value} (hv : Entries.find? prevSearchAfterKey es = some v)
      (hnull : v ≠ .null) : Marked (.object es) v
  | typed {o : Options Value} {v : Value} (hv : o.prevSearchAfter = some v) (hnull : v ≠ .null) :
      Marked (.options o) v.dump

/-- A request hands a marker back, and its document holds nothing under the key of the marker. -/
structure Request.Returns (r : Request) (marker : Value) : Prop where
  stash : Entries.find? Options.prevSearchAfterKey r.stash = some marker
  document : Params.at? Options.prevSearchAfterKey r.params = none
  body : Params.inBody? Options.prevSearchAfterKey r.params = none

namespace Options

theorem isNull_outline_eq_false {v : Value} (h : v ≠ .null) : v.outline.isNull = false := by
  cases v with
  | null => exact absurd rfl h
  | condition c => cases c <;> rfl
  | tree t => cases t <;> rfl
  | options o =>
    obtain ⟨fs, houtline, -, -⟩ := o.exists_optionsOutline_eq
    rw [Value.outline, houtline]
    rfl
  | geoFilters f => cases f; rfl
  | geoBox b => cases b; rfl
  | _ => rfl

theorem find?_marker_dump {o : Options Value} {v : Value} (hv : o.prevSearchAfter = some v)
    (hnull : v ≠ .null) : Entries.find? prevSearchAfterKey o.dump = some v.dump := by
  have hmem : (Label.of prevSearchAfterKey, v.outline) ∈ o.fields := by
    simp [fields, hv, prevSearchAfterKey, Outline.ofOption]
  rw [dump_eq]
  refine (Outline.find?_dumpFields o.nodup_fields hmem).trans ?_
  rw [isNull_outline_eq_false hnull]
  rfl

/-- Marked options of either kind are a mapping with the marker in it. -/
theorem Marked.exists_plain_eq {options v : Value} (h : Marked options v) :
    ∃ es, plain options = .object es ∧ Entries.find? prevSearchAfterKey es = some v ∧
      v ≠ .null := by
  cases h with
  | mapping hv hnull => exact ⟨_, rfl, hv, hnull⟩
  | @typed o v hv hnull =>
    exact ⟨o.dump, o.dump_options, find?_marker_dump hv hnull,
      Outline.dump_ne_null (isNull_outline_eq_false hnull)⟩

/-- Setting caller metadata apart leaves the marker, and it is read. -/
theorem Marked.prevSearchAfter {options v : Value} (h : Marked options v) {write : Bool}
    {o : Options Value} (hread : read write (withoutMeta options) = .ok o) :
    o.prevSearchAfter = some v := by
  obtain ⟨es, hplain, hv, hnull⟩ := h.exists_plain_eq
  rw [withoutMeta, hplain] at hread
  have hreads : Reads write (Entries.erase Params.metaKey es) o := read_object_iff.1 hread
  have herased : Entries.find? prevSearchAfterKey (Entries.erase Params.metaKey es) = some v := by
    rw [Entries.find?_erase_other (by decide), hv]
  obtain ⟨marker, hmarker⟩ := Validate.exists_of_field hreads.prevSearchAfter herased hnull
  have hfield := hreads.prevSearchAfter
  rw [hmarker] at hfield
  obtain ⟨v', hv', -, hvalid⟩ := Validate.field_eq_valid_some hfield
  rw [hmarker, ← Validated.valid.inj hvalid]
  exact hv'.symm.trans herased

theorem Marked.lastMarker {options v : Value} (h : Marked options v) {write : Bool}
    {top : Options Value} (hread : read write (withoutMeta options) = .ok top)
    (nested : List (Options Value)) : Options.lastMarker (nested ++ [top]) = some v := by
  rw [lastMarker_append, lastMarker_singleton, h.prevSearchAfter hread]
  rfl

end Options

namespace Builder

theorem Delivers.returns {b : Builder} {s : Settings} {req : Request} {callerMeta : Entries}
    {wheres options v : Value} {write : Bool} {place : Option Where → Option Where}
    (h : b.Delivers s req callerMeta wheres options write place) (hv : Options.Marked options v)
    (hkeys : ∃ es, req.params = .object es ∧ Params.KeysWithin es) : req.Returns v := by
  obtain ⟨t, q, nested, top, -, -, -, htop, hdelivers⟩ := h
  obtain ⟨es, hparams, hes⟩ := hkeys
  constructor
  · rw [hdelivers.find?_stash, if_pos rfl, hv.lastMarker htop]
    rfl
  · rw [hparams]
    exact hes.at?_eq_none (by decide)
  · rw [hparams]
    exact hes.inBody?_eq_none (by decide)

theorem deleteOne_ok {s : Settings} {index options id : Value} {req : Request}
    (h : (deleteOne s index options id).result = .ok req) :
    ∃ o, Options.read true (Options.withoutMeta options) = .ok o ∧
      req = ⟨.object [("index", index), ("id", id),
          ("refresh", ((o.write.bind WriteControl.refresh).getD defaultRefresh).toValue)],
        Entries.overlay [] (Options.callerMeta options)⟩ := by
  unfold deleteOne at h
  dsimp only at h
  split at h
  · cases h
  · rename_i refresh hrefresh
    obtain ⟨v, hv, hrest⟩ := Outcome.result_bind_ok_iff.1 hrefresh
    obtain ⟨o, ho, hlast⟩ := Outcome.result_bind_ok_iff.1 hrest
    obtain ⟨rfl, hstash⟩ := prepareOptions_ok hv
    cases hlast
    cases h
    refine ⟨o, ho, ?_⟩
    rw [Outcome.effects_bind_ok hv, Outcome.effects_bind_ok ho, hstash]
    simp [Registry.absorb]

/-- **The marker comes back.** Requests of every kind with a marker in their options hand it back
over whatever else is stashed, and keep it out of their documents. A deletion by id keeps it out of
the document too, and hands back the caller metadata alone. -/
theorem marker_comes_back (b : Builder) (s : Settings) {options v : Value}
    (h : Options.Marked options v) :
    (∀ {index wheres columns id : Value} {allowRefresh : Bool} {req : Request},
      (b.request s index wheres options columns id allowRefresh).result = .ok req →
        req.Returns v) ∧
    (∀ {index query searchOptions wheres fields columns : Value} {req : Request},
      (b.search s index query searchOptions wheres options fields columns).result = .ok req →
        req.Returns v) ∧
    (∀ {index wheres id : Value} {req : Request},
      (b.delete s index wheres options id).result = .ok req → id.isNull = true → req.Returns v) ∧
    (∀ {index wheres id : Value} {req : Request},
      (b.delete s index wheres options id).result = .ok req → id.isNull = false →
        req.stash = Entries.overlay [] (Options.callerMeta options) ∧
          Params.at? Options.prevSearchAfterKey req.params = none ∧
          Params.inBody? Options.prevSearchAfterKey req.params = none) := by
  refine ⟨?request, ?search, ?byFilter, ?byId⟩
  case request =>
    intro index wheres columns id allowRefresh req hreq
    exact (request_delivers hreq).returns h (request_keys hreq)
  case search =>
    intro index query searchOptions wheres fields columns req hreq
    obtain ⟨_, _, -, -, hdelivers⟩ := search_delivers hreq
    exact hdelivers.returns h (search_keys hreq)
  case byFilter =>
    intro index wheres id req hreq hid
    rw [delete, if_pos hid] at hreq
    exact (request_delivers hreq).returns h (request_keys hreq)
  case byId =>
    intro index wheres id req hreq hid
    rw [delete, if_neg (by simp [hid])] at hreq
    obtain ⟨o, -, rfl⟩ := deleteOne_ok hreq
    exact ⟨rfl, rfl, rfl⟩

/-- A marker over that of a nested search and beside caller metadata, and one in typed options. -/
theorem marker_over_nested :
    let marker : Value := .list [.int 7]
    let wheres : Value := .object [("comments", .object [("innerNested", .object
      [("wheres", .object [("rating", .int 5)]), ("score_mode", .str "avg"),
        ("options", .object [("prev_search_after", .list [.int 1])])])])]
    let options : Value := .object
      [("_meta", .object [("prev_search_after", .int 3)]), ("prev_search_after", marker)]
    let typed : Value := .options { prevSearchAfter := some marker }
    let b : Builder := {}
    (∃ req, (b.request {} (.str "posts") wheres options .null .null false).result = .ok req ∧
      req.Returns marker) ∧
    (∃ req, (b.search {} (.str "posts") (.str "x") .null wheres typed .null .null).result =
      .ok req ∧ req.Returns marker.dump) ∧
    (∃ req, (b.delete {} (.str "posts") wheres options .null).result = .ok req ∧
      req.Returns marker) ∧
    ∃ req, (b.delete {} (.str "posts") .null options (.str "1")).result = .ok req ∧
      req.stash = [("prev_search_after", .int 3)] := by
  intro marker wheres options typed b
  have hoptions : Options.Marked options marker := .mapping rfl (nomatch ·)
  have htyped : Options.Marked typed marker.dump := .typed rfl (nomatch ·)
  obtain ⟨req₁, h₁⟩ : ∃ req,
      (b.request {} (.str "posts") wheres options .null .null false).result = .ok req :=
    exists_ok_of_isOk (by decide +kernel)
  obtain ⟨req₂, h₂⟩ : ∃ req,
      (b.search {} (.str "posts") (.str "x") .null wheres typed .null .null).result = .ok req :=
    exists_ok_of_isOk (by decide +kernel)
  obtain ⟨req₃, h₃⟩ : ∃ req, (b.delete {} (.str "posts") wheres options .null).result = .ok req :=
    exists_ok_of_isOk (by decide +kernel)
  obtain ⟨req₄, h₄⟩ : ∃ req,
      (b.delete {} (.str "posts") .null options (.str "1")).result = .ok req :=
    exists_ok_of_isOk (by decide +kernel)
  obtain ⟨hrequest, -, hdelete, hdeleteOne⟩ := marker_comes_back b {} hoptions
  obtain ⟨-, hsearch, -, -⟩ := marker_comes_back b {} htyped
  exact ⟨⟨req₁, h₁, hrequest h₁⟩, ⟨req₂, h₂, hsearch h₂⟩, ⟨req₃, h₃, hdelete h₃ rfl⟩,
    req₄, h₄, (hdeleteOne h₄ rfl).1⟩

/-- The marker of a deletion by id does not come back. That of the same deletion by a filter does. -/
theorem marker_lost_by_id :
    let options : Value := .object [("prev_search_after", .list [.int 9])]
    let b : Builder := {}
    (∃ req, (b.delete {} (.str "i") .null options (.str "1")).result = .ok req ∧
      req.stash = []) ∧
    ∃ req, (b.delete {} (.str "i") .null options .null).result = .ok req ∧
      req.stash = [("prev_search_after", .list [.int 9])] :=
  ⟨⟨_, rfl, rfl⟩, _, rfl, rfl⟩

end Builder

end SearchRequest
