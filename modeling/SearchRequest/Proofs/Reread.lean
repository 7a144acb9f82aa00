import SearchRequest.Proofs.Accepted
import SearchRequest.Proofs.Dumped
import SearchRequest.Request.Builder
/-
Options read, written as plain data, and read again. Each part of them is read back from its plain
data (`Rereads`), and so are options as a whole (`Options.Rereadable.reads_dump`). What is lost on
the way is null: a corner of a box that is null is missing afterwards, and a refresh that is null is
absent.
-/
namespace SearchRequest

open Validated (valid)
open Outline (dumpFields)

/-- The plain data of a part is read as what the part was made from. -/
structure Rereads {α : Type} (check : Value → Validated α) (part : Outline) (a : α) : Prop where
  isNull : part.isNull = false
  dumpable : part.dumpable = true
  check_dump : check part.dump = valid a

namespace Rereads

section
variable {α : Type} {fields : List (Label × Outline)} {l : Label} {check : Value → Validated α}

theorem required (hn : (fields.map (·.1.key)).Nodup) {part : Outline} {a : α}
    (h : Rereads check part a) (hmem : (l, part) ∈ fields) :
    Validated.required (dumpFields fields) l.key check = valid a := by
  refine Validated.required_eq_valid_iff.2 ⟨part.dump, ?_, h.check_dump⟩
  rw [Outline.find?_dumpFields hn hmem, h.isNull]; rfl

theorem field (hn : (fields.map (·.1.key)).Nodup) {x : Option α} {part : α → Outline}
    (h : ∀ a, x = some a → Rereads check (part a) a)
    (hmem : (l, Outline.ofOption (x.map part)) ∈ fields) :
    Validate.field (dumpFields fields) l.key check = valid x := by
  refine Validated.optional_eq_valid_iff.2 ?_
  rw [Outline.find?_dumpFields hn hmem]
  cases x with
  | none => exact .inl ⟨rfl, rfl⟩
  | some a =>
    have ha := h a rfl
    refine .inr ⟨(part a).dump, ?_, ?_⟩
    · rw [Option.map_some, Outline.ofOption, ha.isNull]; rfl
    · exact Validate.nullable_eq_valid_some_iff.2 ⟨Outline.dump_ne_null ha.isNull, ha.check_dump⟩

theorem dumpable_ofOption {x : Option α} {part : α → Outline}
    (h : ∀ a, x = some a → Rereads check (part a) a) :
    (Outline.ofOption (x.map part)).dumpable = true := by
  cases x with
  | none => rfl
  | some a => exact (h a rfl).dumpable

/-- The keys of plain data are those of the fields. -/
theorem onlyKeys {known : List String} (h : fields.map (·.1.key) ⊆ known) :
    Validated.onlyKeys known (dumpFields fields) = valid () := by
  refine Validated.onlyKeys_eq_valid_iff.2 fun e he => ?_
  exact h (Outline.keys_dumpFields_subset fields (List.mem_map_of_mem he))

end

/-! ## Single values -/

theorem string (s : String) : Rereads Validate.string (.str s) s :=
  ⟨rfl, rfl, rfl⟩

theorem number (x : Float) : Rereads Validate.number (.float x) x :=
  ⟨rfl, rfl, rfl⟩

theorem natural (n : Nat) : Rereads Validate.natural (.int n) n := by
  have hn : ¬(n : Int) < 0 := by omega
  refine ⟨rfl, rfl, ?_⟩
  simp [Outline.dump, Validate.natural, Validate.integer, Validated.andThen, hn]

theorem mapping {es : Entries} (h : Value.entriesPlain es = true) :
    Rereads Validate.mapping (.mapping (entriesOutline es)) es := by
  refine ⟨rfl, ?_, ?_⟩
  · rw [Outline.dumpable, Value.rowsDumpable_of_entriesPlain es h]
  · rw [Outline.dump, Value.dumpRows_of_entriesPlain es h, Rows.toValue_ofEntries]; rfl

theorem list {vs : List Value} (h : Value.arePlain vs = true) :
    Rereads Validate.list (.seq .list (itemsOutline vs)) vs := by
  refine ⟨rfl, ?_, ?_⟩
  · exact Outline.dumpable_list_iff.2 (Value.areDumpable_of_arePlain vs h)
  · rw [Outline.dump, Value.dumpItems_of_arePlain vs h]; rfl

theorem any {v : Value} (h : v.isPlain = true) (hv : v ≠ .null) :
    Rereads Validate.any v.outline v := by
  refine ⟨?_, Value.dumpable_of_isPlain v h, ?_⟩
  · cases hnull : v.outline.isNull with
    | false => rfl
    | true =>
      have hdump := Value.dump_of_isPlain v h
      cases ho : v.outline <;> simp [ho, Outline.isNull] at hnull
      rw [ho] at hdump
      exact absurd hdump.symm hv
  · rw [Value.dump_of_isPlain v h]; rfl

theorem seed : ∀ s, Rereads Validate.seed (Seed.outline s) s
  | .whole _ | .text _ => ⟨rfl, rfl, rfl⟩

theorem distance : ∀ d, Rereads Validate.distance (Distance.outline d) d
  | .text _ | .whole _ | .real _ => ⟨rfl, rfl, rfl⟩

theorem refresh : ∀ r, Rereads Validate.refresh (Refresh.outline r) r
  | .flag _ | .flagText true | .flagText false | .waitFor => ⟨rfl, rfl, rfl⟩

theorem coordinates (x y : Float) :
    Rereads Validate.coordinates (.seq .tuple [.float x, .float y]) (x, y) :=
  ⟨rfl, rfl, rfl⟩

/-! ## Records -/

theorem randomScore (r : RandomScore) : Rereads Validate.randomScoreValue r.outline r := by
  let fields : List (Label × Outline) :=
    [(.of "column", .str r.column), (.of "seed", r.seed.outline)]
  have hn : (fields.map (·.1.key)).Nodup := by simp [fields, Label.of]
  have hcolumn : Validated.required (dumpFields fields) "column" Validate.string = valid r.column :=
    (string r.column).required hn (l := .of "column") (by simp [fields])
  have hseed : Validated.required (dumpFields fields) "seed" Validate.seed = valid r.seed :=
    (seed r.seed).required hn (l := .of "seed") (by simp [fields])
  have hkeys : Validated.onlyKeys ["column", "seed"] (dumpFields fields) = valid () :=
    onlyKeys (List.Subset.refl _)
  refine ⟨rfl, Outline.dumpable_record_iff.2 ?_, ?_⟩
  · simp [(string r.column).dumpable, (seed r.seed).dumpable]
  · change Validate.randomScore (dumpFields fields) = valid r
    rw [Validate.randomScore, hcolumn, hseed, hkeys]
    rfl

theorem geoPoint (p : GeoPoint) : Rereads Validate.geoPointValue p.outline p := by
  let fields : List (Label × Outline) :=
    [(.of "field", .str p.field), (.of "distance", p.distance.outline),
      (⟨"geo_point", "geoPoint"⟩, .seq .tuple [.float p.lat, .float p.lon])]
  have hn : (fields.map (·.1.key)).Nodup := by simp [fields, Label.of]
  have hfield : Validated.required (dumpFields fields) "field" Validate.string = valid p.field :=
    (string p.field).required hn (l := .of "field") (by simp [fields])
  have hdistance : Validated.required (dumpFields fields) "distance" Validate.distance =
      valid p.distance :=
    (distance p.distance).required hn (l := .of "distance") (by simp [fields])
  have hpoint : Validated.required (dumpFields fields) "geoPoint" Validate.coordinates =
      valid (p.lat, p.lon) :=
    (coordinates p.lat p.lon).required hn (l := ⟨"geo_point", "geoPoint"⟩) (by simp [fields])
  have hkeys : Validated.onlyKeys ["field", "distance", "geoPoint"] (dumpFields fields) = valid () :=
    onlyKeys (List.Subset.refl _)
  refine ⟨rfl, Outline.dumpable_record_iff.2 ?_, ?_⟩
  · simp [(string p.field).dumpable, (distance p.distance).dumpable,
      (coordinates p.lat p.lon).dumpable]
  · change Validate.geoPoint (dumpFields fields) = valid p
    rw [Validate.geoPoint, hfield, hdistance, hpoint, hkeys]
    rfl

/-- A box is read again when its corners are plain, and neither of them is null: a corner that is
null is left out of the plain data, and then missing. -/
theorem geoBox {b : GeoBox Value} (hleft : b.topLeft.isPlain = true ∧ b.topLeft ≠ .null)
    (hright : b.bottomRight.isPlain = true ∧ b.bottomRight ≠ .null) :
    Rereads Validate.geoBoxValue (boxOutline b) b := by
  let fields : List (Label × Outline) :=
    [(.of "field", .str b.field), (⟨"top_left", "topLeft"⟩, b.topLeft.outline),
      (⟨"bottom_right", "bottomRight"⟩, b.bottomRight.outline)]
  have hn : (fields.map (·.1.key)).Nodup := by simp [fields, Label.of]
  have hfield : Validated.required (dumpFields fields) "field" Validate.string = valid b.field :=
    (string b.field).required hn (l := .of "field") (by simp [fields])
  have htopLeft : Validated.required (dumpFields fields) "topLeft" Validate.any =
      valid b.topLeft :=
    (any hleft.1 hleft.2).required hn (l := ⟨"top_left", "topLeft"⟩) (by simp [fields])
  have hbottomRight : Validated.required (dumpFields fields) "bottomRight" Validate.any =
      valid b.bottomRight :=
    (any hright.1 hright.2).required hn (l := ⟨"bottom_right", "bottomRight"⟩) (by simp [fields])
  have hkeys : Validated.onlyKeys ["field", "topLeft", "bottomRight"] (dumpFields fields) =
      valid () :=
    onlyKeys (List.Subset.refl _)
  have houtline : boxOutline b = .record "GeoBoxFilter" fields := by
    obtain ⟨_, _, _⟩ := b
    rw [boxOutline]
  rw [houtline]
  refine ⟨rfl, Outline.dumpable_record_iff.2 ?_, ?_⟩
  · simp [fields, (string b.field).dumpable, (any hleft.1 hleft.2).dumpable,
      (any hright.1 hright.2).dumpable]
  · change Validate.geoBox (dumpFields fields) = valid b
    rw [Validate.geoBox, hfield, htopLeft, hbottomRight, hkeys]
    rfl

/-- The filters of options, with a box that is read again when there is one. -/
theorem geoFilters {f : GeoFilters Value}
    (hbox : ∀ b, f.box = some b → Rereads Validate.geoBoxValue (boxOutline b) b) :
    Rereads Validate.geoFiltersValue (filtersOutline f) f := by
  obtain ⟨box, point⟩ := f
  let fields : List (Label × Outline) :=
    [(⟨"geo_box", "filterGeoBox"⟩, .ofOption (box.map boxOutline)),
      (⟨"geo_point", "filterGeoPoint"⟩, .ofOption (point.map GeoPoint.outline))]
  have hn : (fields.map (·.1.key)).Nodup := by simp [fields]
  have hboxField : Validate.field (dumpFields fields) "filterGeoBox" Validate.geoBoxValue =
      valid box :=
    field hn (l := ⟨"geo_box", "filterGeoBox"⟩) hbox (by simp [fields])
  have hpointField : Validate.field (dumpFields fields) "filterGeoPoint" Validate.geoPointValue =
      valid point :=
    field hn (l := ⟨"geo_point", "filterGeoPoint"⟩) (fun p _ => geoPoint p) (by simp [fields])
  have hkeys : Validated.onlyKeys ["filterGeoBox", "filterGeoPoint"] (dumpFields fields) =
      valid () :=
    onlyKeys (List.Subset.refl _)
  have houtline : filtersOutline ⟨box, point⟩ = .record "FilterOptions" fields := by
    cases box <;> rw [filtersOutline, optionalBoxOutline] <;> rfl
  rw [houtline]
  refine ⟨rfl, Outline.dumpable_record_iff.2 ?_, ?_⟩
  · simp [fields, dumpable_ofOption hbox, dumpable_ofOption fun p _ => geoPoint p]
  · unfold Validate.field at hboxField hpointField
    change Validate.geoFilters (dumpFields fields) = valid _
    rw [Validate.geoFilters, hboxField, hpointField, hkeys]
    rfl

end Rereads

/-! ## Options -/

theorem optionalEntriesOutline_eq (x : Option Entries) :
    optionalEntriesOutline x = .ofOption (x.map fun es => .mapping (entriesOutline es)) := by
  cases x <;> rw [optionalEntriesOutline] <;> rfl

theorem optionalItemsOutline_eq (x : Option (List Value)) :
    optionalItemsOutline x = .ofOption (x.map fun vs => .seq .list (itemsOutline vs)) := by
  cases x <;> rw [optionalItemsOutline] <;> rfl

theorem optionalOutline_eq (x : Option Value) :
    optionalOutline x = .ofOption (x.map Value.outline) := by
  cases x <;> rw [optionalOutline] <;> rfl

theorem optionalFiltersOutline_eq (x : Option (GeoFilters Value)) :
    optionalFiltersOutline x = .ofOption (x.map filtersOutline) := by
  cases x <;> rw [optionalFiltersOutline] <;> rfl

namespace Options

/-- The policy of options that ask for one. -/
def refresh (o : Options Value) : Option Refresh :=
  o.write.bind WriteControl.refresh

/-- The values in options that can be anything: payloads, markers, and what is kept for callers. -/
def freeForm (o : Options Value) : List Value :=
  [(o.sort.getD []).map (·.2), o.searchAfter.getD [], o.prevSearchAfter.toList,
    (o.filters.bind GeoFilters.box).toList.flatMap fun b => [b.topLeft, b.bottomRight],
    (o.highlights.getD []).map (·.2), o.multiple.toList, o.searchOptions.toList].flatten

/-- Whether options hold a box with a corner that is null. The corner is lost in their plain data,
where it has to be there. -/
def LosesCorner (o : Options Value) : Prop :=
  ∃ b, o.filters.bind GeoFilters.box = some b ∧ (b.topLeft = .null ∨ b.bottomRight = .null)

/-- The fields of options; a field that they do not have is null. -/
def fields (o : Options Value) : List (Label × Outline) :=
  [(.of "limit", .ofOption (o.limit.map fun n : Nat => .int n)),
    (.of "skip", .ofOption (o.skip.map fun n : Nat => .int n)),
    (.of "sort", .ofOption (o.sort.map fun es => .mapping (entriesOutline es))),
    (.of "search_after", .ofOption (o.searchAfter.map fun vs => .seq .list (itemsOutline vs))),
    (.of "prev_search_after", .ofOption (o.prevSearchAfter.map Value.outline)),
    (⟨"min_score", "minScore"⟩, .ofOption (o.minScore.map .float)),
    (.of "filters", .ofOption (o.filters.map filtersOutline)),
    (.of "highlights", .ofOption (o.highlights.map fun es => .mapping (entriesOutline es))),
    (.of "random_score", .ofOption (o.randomScore.map RandomScore.outline)),
    (.of "multiple", .ofOption (o.multiple.map Value.outline)),
    (⟨"search_options", "searchOptions"⟩, .ofOption (o.searchOptions.map Value.outline)),
    (.of "refresh", .ofOption (o.refresh.map Refresh.outline))]

/-- The outline of options is a record of their fields; without a place for a policy it has one field
less, which would be null. -/
theorem exists_optionsOutline_eq (o : Options Value) :
    ∃ fs, optionsOutline o = .record o.typeName fs ∧ fs ⊆ o.fields ∧
      dumpFields fs = dumpFields o.fields := by
  let shared := o.fields.dropLast
  have hfields : o.fields = shared ++ [(.of "refresh", .ofOption (o.refresh.map Refresh.outline))] :=
    rfl
  obtain ⟨_, _, _, _, _, _, _, _, _, _, _, control⟩ := o
  cases control with
  | none =>
    refine ⟨shared, ?_, List.dropLast_subset _, ?_⟩
    · rw [optionsOutline, optionalEntriesOutline_eq, optionalEntriesOutline_eq,
        optionalItemsOutline_eq, optionalOutline_eq, optionalOutline_eq, optionalOutline_eq,
        optionalFiltersOutline_eq]
      rfl
    · rw [hfields, Outline.dumpFields_append]
      exact (List.append_nil _).symm
  | some control =>
    refine ⟨_, ?_, List.Subset.refl _, rfl⟩
    rw [optionsOutline, optionalEntriesOutline_eq, optionalEntriesOutline_eq,
      optionalItemsOutline_eq, optionalOutline_eq, optionalOutline_eq, optionalOutline_eq,
      optionalFiltersOutline_eq]
    rfl

theorem dump_eq (o : Options Value) : o.dump = dumpFields o.fields := by
  obtain ⟨fs, houtline, -, hdump⟩ := o.exists_optionsOutline_eq
  rw [dump, houtline]
  exact hdump

/-- Options as a value have the same plain data. -/
theorem dump_options (o : Options Value) : (Value.options o).dump = .object o.dump := by
  obtain ⟨fs, houtline, -, -⟩ := o.exists_optionsOutline_eq
  rw [Value.dump, Value.outline, dump, houtline, Outline.dump]; rfl

theorem nodup_fields (o : Options Value) : (o.fields.map (·.1.key)).Nodup := by
  simp [fields, Label.of]

theorem find?_refresh_dump (o : Options Value) :
    Entries.find? "refresh" o.dump = o.refresh.map fun r => r.outline.dump := by
  have hmem : (Label.of "refresh", .ofOption (o.refresh.map Refresh.outline)) ∈ o.fields := by
    simp [fields]
  rw [dump_eq]
  refine (Outline.find?_dumpFields o.nodup_fields hmem).trans ?_
  cases o.refresh with
  | none => rfl
  | some r => rw [Option.map_some, Outline.ofOption, (Rereads.refresh r).isNull]; rfl

/-- Free-form values are read as they are, unless they are null. -/
theorem ne_null_of_field {es : Entries} {key : String} {v : Value}
    (h : Validate.field es key Validate.any = valid (some v)) : v ≠ .null := by
  obtain ⟨v', -, hv', hv⟩ := Validate.field_eq_valid_some h
  obtain rfl : v' = v := Validated.valid.inj hv
  exact hv'

/-- Every part of options that can be anything, or holds such a part, is read again. -/
structure Rereadable (o : Options Value) : Prop where
  sort : ∀ es, o.sort = some es → Rereads Validate.mapping (.mapping (entriesOutline es)) es
  searchAfter : ∀ vs, o.searchAfter = some vs →
    Rereads Validate.list (.seq .list (itemsOutline vs)) vs
  prevSearchAfter : ∀ v, o.prevSearchAfter = some v → Rereads Validate.any v.outline v
  filters : ∀ f, o.filters = some f → Rereads Validate.geoFiltersValue (filtersOutline f) f
  highlights : ∀ es, o.highlights = some es →
    Rereads Validate.mapping (.mapping (entriesOutline es)) es
  multiple : ∀ v, o.multiple = some v → Rereads Validate.any v.outline v
  searchOptions : ∀ v, o.searchOptions = some v → Rereads Validate.any v.outline v

/-- Options that were read from a mapping are read again when their free-form values are plain and
no corner of a box is null. -/
theorem Reads.rereadable {write : Bool} {es : Entries} {o : Options Value} (h : Reads write es o)
    (hplain : ∀ v ∈ o.freeForm, v.isPlain = true) (hcorner : ¬o.LosesCorner) : o.Rereadable where
  sort := by
    intro es hes
    refine Rereads.mapping (Value.entriesPlain_iff.2 fun v hv => hplain v ?_)
    exact List.mem_flatten_of_mem (by simp [hes]) hv
  searchAfter := by
    intro vs hvs
    refine Rereads.list (Value.arePlain_iff.2 fun v hv => hplain v ?_)
    exact List.mem_flatten_of_mem (by simp [hvs]) hv
  prevSearchAfter := by
    intro v hv
    refine Rereads.any (hplain v ?_) (ne_null_of_field (hv ▸ h.prevSearchAfter))
    simp [freeForm, hv]
  filters := by
    intro f hf
    refine Rereads.geoFilters fun b hb => ?_
    have hbox : o.filters.bind GeoFilters.box = some b := by simp [hf, hb]
    have hnull : ¬(b.topLeft = .null ∨ b.bottomRight = .null) := fun hn => hcorner ⟨b, hbox, hn⟩
    rw [not_or] at hnull
    refine Rereads.geoBox ⟨hplain _ ?_, hnull.1⟩ ⟨hplain _ ?_, hnull.2⟩ <;> simp [freeForm, hbox]
  highlights := by
    intro es hes
    refine Rereads.mapping (Value.entriesPlain_iff.2 fun v hv => hplain v ?_)
    exact List.mem_flatten_of_mem (by simp [hes]) hv
  multiple := by
    intro v hv
    refine Rereads.any (hplain v ?_) (ne_null_of_field (hv ▸ h.multiple))
    simp [freeForm, hv]
  searchOptions := by
    intro v hv
    refine Rereads.any (hplain v ?_) (ne_null_of_field (hv ▸ h.searchOptions))
    simp [freeForm, hv]

/-- The options as those of a request that may write, or of one that may not. -/
def forWrite (o : Options Value) (write : Bool) : Options Value :=
  { o with write := if write then some ⟨o.refresh⟩ else none }

theorem readWrite_eq {es : Entries} {r : Option Refresh}
    (h : Validate.field es "refresh" Validate.refresh = valid r) (write : Bool) :
    readWrite write es = valid (if write then some ⟨r⟩ else none) := by
  cases write with
  | false => rfl
  | true =>
    unfold Validate.field at h
    rw [readWrite, if_pos rfl, Validate.writeControl, h]
    rfl

/-- The plain data of options is read as these options, by a request that may write or, when they
ask for no refresh, by any other. -/
theorem Rereadable.reads_dump {o : Options Value} (h : o.Rereadable) {write : Bool}
    (hwrite : write = true ∨ o.refresh = none) : Reads write o.dump (o.forWrite write) := by
  rw [dump_eq, forWrite]
  have hn := o.nodup_fields
  have hrefresh : Validate.field (dumpFields o.fields) "refresh" Validate.refresh =
      valid o.refresh :=
    Rereads.field hn (l := .of "refresh") (fun r _ => Rereads.refresh r) (by simp [fields])
  refine ⟨⟨?limit, ?skip, ?sort, ?searchAfter, ?prevSearchAfter, ?minScore, ?filters, ?highlights,
    ?randomScore, ?multiple, ?searchOptions, ?control⟩, ?keys⟩
  case limit =>
    exact Rereads.field hn (l := .of "limit") (fun n _ => Rereads.natural n) (by simp [fields])
  case skip =>
    exact Rereads.field hn (l := .of "skip") (fun n _ => Rereads.natural n) (by simp [fields])
  case sort => exact Rereads.field hn (l := .of "sort") h.sort (by simp [fields])
  case searchAfter =>
    exact Rereads.field hn (l := .of "search_after") h.searchAfter (by simp [fields])
  case prevSearchAfter =>
    exact Rereads.field hn (l := .of "prev_search_after") h.prevSearchAfter (by simp [fields])
  case minScore =>
    exact Rereads.field hn (l := ⟨"min_score", "minScore"⟩) (fun x _ => Rereads.number x)
      (by simp [fields])
  case filters => exact Rereads.field hn (l := .of "filters") h.filters (by simp [fields])
  case highlights => exact Rereads.field hn (l := .of "highlights") h.highlights (by simp [fields])
  case randomScore =>
    exact Rereads.field hn (l := .of "random_score") (fun r _ => Rereads.randomScore r)
      (by simp [fields])
  case multiple => exact Rereads.field hn (l := .of "multiple") h.multiple (by simp [fields])
  case searchOptions =>
    exact Rereads.field hn (l := ⟨"search_options", "searchOptions"⟩) h.searchOptions
      (by simp [fields])
  case control => exact readWrite_eq hrefresh write
  case keys =>
    intro e he
    have hkey : e.1 ∈ sharedKeys ++ ["refresh"] :=
      Outline.keys_dumpFields_subset _ (List.mem_map_of_mem he)
    cases write with
    | true => exact hkey
    | false =>
      have hnone : o.refresh = none := hwrite.resolve_left Bool.false_ne_true
      refine (List.mem_append.1 hkey).resolve_right fun hlast => ?_
      have hfind : Entries.find? "refresh" (dumpFields o.fields) = none := by
        rw [← dump_eq, find?_refresh_dump, hnone]; rfl
      refine Entries.find?_eq_none_iff.1 hfind ?_
      rw [← List.mem_singleton.1 hlast]
      exact List.mem_map_of_mem he

theorem Rereadable.dumpable {o : Options Value} (h : o.Rereadable) :
    (Value.options o).dumpable = true := by
  obtain ⟨fs, houtline, hfs, -⟩ := o.exists_optionsOutline_eq
  rw [Value.dumpable, Value.outline, houtline]
  refine Outline.dumpable_record_iff.2 fun f hf => ?_
  have hall : ∀ f ∈ o.fields, f.2.dumpable = true := by
    simp only [fields, List.forall_mem_cons]
    exact ⟨Rereads.dumpable_ofOption fun n _ => Rereads.natural n,
      Rereads.dumpable_ofOption fun n _ => Rereads.natural n, Rereads.dumpable_ofOption h.sort,
      Rereads.dumpable_ofOption h.searchAfter, Rereads.dumpable_ofOption h.prevSearchAfter,
      Rereads.dumpable_ofOption fun x _ => Rereads.number x, Rereads.dumpable_ofOption h.filters,
      Rereads.dumpable_ofOption h.highlights,
      Rereads.dumpable_ofOption fun r _ => Rereads.randomScore r,
      Rereads.dumpable_ofOption h.multiple, Rereads.dumpable_ofOption h.searchOptions,
      Rereads.dumpable_ofOption fun r _ => Rereads.refresh r, List.forall_mem_nil _⟩
  exact hall f (hfs hf)

/-! ## The same entries read by requests of both kinds -/

/-- A request that may not write refuses a refresh when it reads all fields and knows the other
keys. -/
theorem ReadsFields.refuses {es : Entries} {o : Options Value} (h : ReadsFields false es o)
    (hkeys : ∀ e ∈ es, e.1 ∈ sharedKeys ∨ e.1 = "refresh") (hrefresh : "refresh" ∈ Entries.keys es) :
    readEntries false es = .error (.unknownOption "refresh") := by
  have hunknown : "refresh" ∉ sharedKeys := by decide
  obtain ⟨more, hmore⟩ := Validated.onlyKeys_eq_invalid hkeys hunknown hrefresh
  have hinvalid : ofEntries false es = .invalid ⟨["refresh"], .unknownKey⟩ more := by
    rw [h.ofEntries_eq, Options.keys, if_neg Bool.false_ne_true, hmore]
    rfl
  have hreported : Error.ofOptionFailures ⟨["refresh"], .unknownKey⟩ more =
      .unknownOption "refresh" := by
    rw [Error.ofOptionFailures, List.find?_cons_of_pos rfl]
    rfl
  rw [readEntries_of_invalid hinvalid, hreported]

section
variable {write : Bool} {es : Entries} {o : Options Value} (h : Reads write es o)
include h

/-- Only requests that may write know the key. -/
theorem Reads.eq_true (hkey : "refresh" ∈ Entries.keys es) : write = true := by
  obtain ⟨e, he, hlast⟩ := List.mem_map.1 hkey
  have hknown := h.keys e he
  rw [hlast] at hknown
  cases write with
  | true => rfl
  | false => exact absurd hknown (by decide)

theorem Reads.refresh : Validate.field es "refresh" Validate.refresh = valid o.refresh := by
  cases write with
  | true =>
    obtain ⟨c, hc, hwrite⟩ := Validated.map_eq_valid_iff.1 h.control
    obtain ⟨r, hr, rfl⟩ := Validated.map_eq_valid_iff.1 hc
    rw [Options.refresh, ← hwrite]
    exact hr
  | false =>
    have hnone : none = o.write := Validated.valid.inj h.control
    have hfind : Entries.find? "refresh" es = none :=
      Entries.find?_eq_none_iff.2 fun hkey => Bool.false_ne_true (h.eq_true hkey)
    rw [Options.refresh, ← hnone]
    exact Validated.optional_eq_valid_iff.2 (.inl ⟨hfind, rfl⟩)

theorem Reads.forWrite_eq : o.forWrite write = o := by
  have hwrite := h.isSome_write
  obtain ⟨_, _, _, _, _, _, _, _, _, _, _, control⟩ := o
  cases control <;> cases hwrite <;> rfl

/-- Entries that are read as options are read by the other kind of request as well, which takes a
refresh only if it may write. -/
theorem Reads.forWrite {write' : Bool} (hwrite : write' = true ∨ "refresh" ∉ Entries.keys es) :
    Reads write' es (o.forWrite write') := by
  refine ⟨{ h.toReadsFields with control := readWrite_eq h.refresh write' }, fun e he => ?_⟩
  have hkey : e.1 ∈ sharedKeys ++ ["refresh"] := by
    have hknown := h.keys e he
    cases write with
    | true => exact hknown
    | false => exact List.mem_append_left _ hknown
  cases write' with
  | true => exact hkey
  | false =>
    have hfresh := hwrite.resolve_left Bool.false_ne_true
    refine (List.mem_append.1 hkey).resolve_right fun hlast => hfresh ?_
    rw [← List.mem_singleton.1 hlast]
    exact List.mem_map_of_mem he

/-- A request that may not write refuses entries with a refresh, and nothing else about them. -/
theorem Reads.refuses (hrefresh : "refresh" ∈ Entries.keys es) :
    readEntries false es = .error (.unknownOption "refresh") := by
  have hfields : ReadsFields false es (o.forWrite false) :=
    { h.toReadsFields with control := rfl }
  have hwrite : Reads true es (o.forWrite true) := h.forWrite (.inl rfl)
  refine hfields.refuses (fun e he => ?_) hrefresh
  have hkey : e.1 ∈ sharedKeys ++ ["refresh"] := hwrite.keys e he
  exact (List.mem_append.1 hkey).imp_right List.mem_singleton.1

end

end Options

end SearchRequest
