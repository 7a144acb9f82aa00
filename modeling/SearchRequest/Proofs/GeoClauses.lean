import SearchRequest.Proofs.Accepted
import SearchRequest.Proofs.Registered
import SearchRequest.Proofs.SortList
/-
The geographic point of a filter and of a sort entry. Both stand under the name of the field, in one
mapping with parameters under names of their own, so a field that is called as a parameter and the
parameter have one place. A filter writes the point last and loses its distance, an entry of a sort
list writes the parameters last and loses its point. All other fields keep everything
(`Options.geo_parameters_kept`).
-/
namespace SearchRequest

open Validated (valid)

/-! ## Filters -/

/-- The geographic point that options filter by. -/
def Options.point? (o : Options Value) : Option GeoPoint :=
  o.filters.bind GeoFilters.point

namespace GeoPoint

/-- A point is what its mapping gives. A distance that is a text or a number stays what it is. -/
structure IsGiven (es : Entries) (p : GeoPoint) : Prop where
  field : ∃ v, Entries.find? "field" es = some v ∧ Validate.string v = valid p.field
  distance : ∃ v, Entries.find? "distance" es = some v ∧ Validate.distance v = valid p.distance
  written : ∀ d : Distance, Entries.find? "distance" es = some d.toValue → p.distance = d
  place : ∃ v, Entries.find? "geoPoint" es = some v ∧ Validate.coordinates v = valid (p.lat, p.lon)

/-- The place of a point, as a filter clause has it. -/
def place (p : GeoPoint) : Value :=
  .object [("lat", .float p.lat), ("lon", .float p.lon)]

/-- A filter clause holds the distance of a point, and its place under the field. -/
def KeptIn (p : GeoPoint) (clause : Value) : Prop :=
  ∃ es, clause = .entry "geo_distance" (.object es) ∧
    Entries.find? "distance" es = some p.distance.toValue ∧ Entries.find? p.field es = some p.place

/-- The clause of a point holds all of it unless the field has the name of the distance. -/
theorem keptIn_clause_iff (p : GeoPoint) : p.KeptIn p.clause ↔ p.field ≠ "distance" := by
  let es := Entries.insert p.field p.place [("distance", p.distance.toValue)]
  have hclause : p.clause = .entry "geo_distance" (.object es) := rfl
  constructor
  · rintro ⟨es', hes, hdistance, hplace⟩ hfield
    -- One key would have to hold the distance and the place.
    rw [hfield, hdistance] at hplace
    cases hd : p.distance <;> simp [hd, place, Distance.toValue] at hplace
  · intro hfield
    refine ⟨es, hclause, ?_, Entries.find?_insert_self ..⟩
    rw [Entries.find?_insert_other (Ne.symm hfield)]
    simp [Entries.find?]

theorem distance_toValue (d : Distance) : Validate.distance d.toValue = valid d := by
  cases d <;> rfl

theorem isGiven_of_valid {es : Entries} {p : GeoPoint} (h : Validate.geoPoint es = valid p) :
    p.IsGiven es := by
  rw [Validate.geoPoint, Validated.seqLeft_eq_valid_iff] at h
  simp only [Validated.seq_eq_valid_iff, Validated.map_eq_valid_iff] at h
  obtain ⟨⟨_, ⟨_, ⟨field, hfield, rfl⟩, distance, hdistance, rfl⟩, place, hplace, rfl⟩, -⟩ := h
  obtain ⟨v, hv, hread⟩ := Validated.required_eq_valid_iff.1 hdistance
  refine ⟨Validated.required_eq_valid_iff.1 hfield, ⟨v, hv, hread⟩, fun d hd => ?_,
    Validated.required_eq_valid_iff.1 hplace⟩
  obtain rfl : v = d.toValue := Option.some.inj (hv.symm.trans hd)
  exact (Validated.valid.inj ((distance_toValue d).symm.trans hread)).symm

end GeoPoint

/-- Options that are read from a mapping with a point have this point. -/
theorem Options.point?_of_read {write : Bool} {es fs g : Entries} {o : Options Value}
    (h : read write (.object es) = .ok o) (hfilters : Entries.find? "filters" es = some (.object fs))
    (hpoint : Entries.find? "filterGeoPoint" fs = some (.object g)) :
    ∃ p, o.point? = some p ∧ p.IsGiven g := by
  have hread : Validate.field es "filters" Validate.geoFiltersValue = valid o.filters :=
    (readEntries_eq_ok_iff.1 h).filters
  obtain ⟨f, hf⟩ := Validate.exists_of_field hread hfilters (by simp)
  rw [hf] at hread
  obtain ⟨v, hv, -, hvalid⟩ := Validate.field_eq_valid_some hread
  obtain rfl : v = .object fs := Option.some.inj (hv.symm.trans hfilters)
  have hvalid : Validate.geoFilters fs = valid f := hvalid
  rw [Validate.geoFilters, Validated.seqLeft_eq_valid_iff] at hvalid
  simp only [Validated.seq_eq_valid_iff, Validated.map_eq_valid_iff] at hvalid
  obtain ⟨⟨_, ⟨box, -, rfl⟩, point, hgiven, rfl⟩, -⟩ := hvalid
  obtain ⟨p, rfl⟩ := Validate.exists_of_field hgiven hpoint (by simp)
  obtain ⟨w, hw, -, hp⟩ := Validate.field_eq_valid_some hgiven
  obtain rfl : w = .object g := Option.some.inj (hw.symm.trans hpoint)
  exact ⟨p, by rw [point?, hf]; rfl, GeoPoint.isGiven_of_valid hp⟩

/-- What options filter by is registered. -/
theorem Options.clause_mem_of_compile {env : Environment} {write : Bool} {v : Value}
    {c : CompiledOptions} (h : (compile env write v).result = .ok c) :
    ∃ o, read write v = .ok o ∧
      ∀ p, o.point? = some p → p.clause ∈ (compile env write v).effects.clauses := by
  obtain ⟨o, ho, heffects⟩ := Compile.unlogged_options h
  refine ⟨o, ho, fun p hp => ?_⟩
  have hclauses : (compile env write v).effects.clauses = (together [o]).clauses := by
    rw [← heffects]
    rfl
  obtain ⟨f, hf, hpoint⟩ := Option.bind_eq_some_iff.1 hp
  rw [hclauses]
  simp [together, geoClauses, hf, hpoint]

end SearchRequest

namespace SearchRequest.Sort

/-! ## Sort entries -/

/-- An entry by distance holds the point under the field, and every parameter that the payload
gives. -/
structure DistanceKept (field : String) (pin : Value) (payload : Entries) (e : Entry) : Prop where
  key : e.1 = "_geo_distance"
  pin : Params.at? field e.2 = some pin
  order : Params.at? "order" e.2 = some (direction payload)
  given : ∀ key ∈ ["unit", "mode", "distance_type"], ∀ v, given? payload key = some v →
    Params.at? key e.2 = some v

/-- The field has no name of a parameter that the entry has, unless both are the same. -/
def Apart (field : String) (pin : Value) (payload : Entries) : Prop :=
  ∀ v, (field, v) ∈ distanceParameters payload → v = pin

theorem keys_distanceParameters_sublist (payload : Entries) :
    (Entries.keys (distanceParameters payload)).Sublist ["order", "unit", "mode", "distance_type"] :=
  (keys_parameters_sublist payload ["unit", "mode", "distance_type"]).cons_cons "order"

theorem nodup_distanceParameters (payload : Entries) :
    (Entries.keys (distanceParameters payload)).Nodup :=
  (keys_distanceParameters_sublist payload).nodup (by decide)

/-- A field with a name of its own is apart from all parameters. -/
theorem apart_of_not_mem {field : String} (h : field ∉ ["order", "unit", "mode", "distance_type"])
    (pin : Value) (payload : Entries) : Apart field pin payload := by
  intro v hv
  have hkey : field ∈ Entries.keys (distanceParameters payload) := List.mem_map_of_mem hv
  exact absurd ((keys_distanceParameters_sublist payload).subset hkey) h

theorem find?_parameters {payload : Entries} {key : String} {keys : List String} (h : key ∈ keys)
    (hn : keys.Nodup) : Entries.find? key (parameters payload keys) = given? payload key := by
  induction keys with
  | nil => cases h
  | cons k keys ih =>
    obtain ⟨hfresh, hn⟩ := List.nodup_cons.1 hn
    have hcons : parameters payload (k :: keys) =
        Entries.ofOption k (given? payload k) ++ parameters payload keys := List.flatMap_cons
    rw [hcons, Entries.find?_append, Entries.find?_ofOption]
    rcases List.mem_cons.1 h with rfl | h
    · have hnone : Entries.find? key (parameters payload keys) = none :=
        Entries.find?_eq_none_iff.2 fun hmem =>
          hfresh ((keys_parameters_sublist payload keys).subset hmem)
      rw [if_pos rfl, hnone, Option.or_none]
    · have hne : k ≠ key := fun heq => hfresh (heq ▸ h)
      rw [if_neg hne, Option.none_or, ih h hn]

/-- The parameters of an entry by distance are laid on the point. -/
theorem find?_distance (key field : String) (pin : Value) (payload : Entries) :
    Entries.find? key (Entries.overlay [(field, pin)] (distanceParameters payload)) =
      (Entries.find? key (distanceParameters payload)).or (Entries.find? key [(field, pin)]) := by
  -- The names of the parameters are distinct, so the last entry for a key is the only one.
  have hnone : ∀ k ∈ Entries.keys (distanceParameters payload), k ∉ Entries.keys ([] : Entries) :=
    fun _ _ h => nomatch h
  rw [Entries.find?_overlay, Entries.overlay_of_new (nodup_distanceParameters payload) hnone,
    List.nil_append]

/-- An entry by distance keeps all parameters, and keeps the point exactly if the field is apart from
them. -/
theorem distanceKept_iff {field : String} {pin : Value} {payload : Entries} :
    DistanceKept field pin payload ("_geo_distance",
      .object (Entries.overlay [(field, pin)] (distanceParameters payload))) ↔
      Apart field pin payload := by
  have hself : Entries.find? field [(field, pin)] = some pin := by simp [Entries.find?]
  have hat (key : String) : Params.at? key (.object (Entries.overlay [(field, pin)]
      (distanceParameters payload))) = (Entries.find? key (distanceParameters payload)).or
        (Entries.find? key [(field, pin)]) := find?_distance key field pin payload
  constructor
  · rintro ⟨-, hpin, -, -⟩ v hv
    rw [hat, (Entries.find?_eq_some_iff (nodup_distanceParameters payload)).2 hv] at hpin
    exact Option.some.inj hpin
  · intro hapart
    refine ⟨rfl, ?_, ?_, fun key hkey v hv => ?_⟩
    · rw [hat, hself]
      cases hfind : Entries.find? field (distanceParameters payload) with
      | none => rfl
      | some v => rw [hapart v (Entries.mem_of_find? hfind)]; rfl
    · rw [hat]
      simp [distanceParameters, Entries.find?]
    · have hne : "order" ≠ key := fun heq => absurd (heq ▸ hkey) (by decide)
      have hfind : Entries.find? key (distanceParameters payload) = some v := by
        rw [distanceParameters, Entries.find?, if_neg hne, find?_parameters hkey (by decide), hv]
      rw [hat, hfind]
      rfl

end SearchRequest.Sort

namespace SearchRequest.Options

/-! ## Options -/

/-- **Geographic clauses keep the point and every parameter.** The point that options filter by is
registered as it is given, with its distance unless the field is called `distance`. A payload that
sorts by the distance to a point always has its entry, with the point and all parameters that it
gives, exactly if the field is apart from the names of these. -/
theorem geo_parameters_kept {env : Environment} {write : Bool} {v : Value} {c : CompiledOptions}
    (h : (compile env write v).result = .ok c) : ∃ o, read write v = .ok o ∧
      (∀ p, o.point? = some p →
        p.clause ∈ (compile env write v).effects.clauses ∧
        (p.KeptIn p.clause ↔ p.field ≠ "distance")) ∧
      (∀ es fs g, v = .object es → Entries.find? "filters" es = some (.object fs) →
        Entries.find? "filterGeoPoint" fs = some (.object g) →
          ∃ p, o.point? = some p ∧ p.IsGiven g) ∧
      (∀ field x payload flag pin, Sort.drops env.allowIdSort field = false →
        Sort.mapping? x = some payload → Sort.chosen? payload "is_geo" = some flag →
          Sort.given? payload "pin" = some pin →
            ∃ e, Sort.entry env.allowIdSort field x = .ok (some e) ∧ e.1 = "_geo_distance" ∧
              (Sort.DistanceKept field pin payload e ↔ Sort.Apart field pin payload)) ∧
      ∀ sort, o.sort = some sort → ∃ es, c.sort = some es ∧
        List.Forall₂ (fun x e => Sort.entry env.allowIdSort x.1 x.2 = .ok (some e))
          (Sort.kept env.allowIdSort sort) es := by
  obtain ⟨o, ho, hclauses⟩ := clause_mem_of_compile h
  refine ⟨o, ho, fun p hp => ⟨hclauses p hp, p.keptIn_clause_iff⟩, ?given, ?entry, ?sort⟩
  case given =>
    rintro es fs g rfl hfilters hpoint
    exact point?_of_read ho hfilters hpoint
  case entry =>
    intro field x payload flag pin hkept hpayload hgeo hpin
    obtain ⟨e, he, heq⟩ := (Sort.SortsBy.distance hpayload hgeo hpin).entry_eq hkept
    cases heq
    exact ⟨_, he, rfl, Sort.distanceKept_iff⟩
  case sort =>
    intro sort hsort
    obtain ⟨o', ho', htyped⟩ := Outcome.result_bind_ok_iff.1 h
    cases ho.symm.trans ho'
    obtain ⟨sorts, hsorts, hrest⟩ := Outcome.result_bind_ok_iff.1 htyped
    obtain ⟨-, -, hc⟩ := Outcome.result_bind_ok_iff.1 hrest
    cases hc
    rw [hsort] at hsorts
    obtain ⟨es, hes, hsome⟩ := Outcome.result_bind_ok_iff.1 hsorts
    cases hsome
    exact ⟨es, rfl, Sort.forall₂_entries hes⟩

/-- A point and an entry of a sort list for a field with a name of its own. -/
theorem geo_parameters_kept_place :
    let point : Entries :=
      [("field", .str "place"), ("distance", .str "5km"), ("geoPoint", .list [.float 1.5, .float 2.5])]
    let payload : Entries :=
      [("is_geo", .bool true), ("pin", .list [.float 1.5, .float 2.5]), ("unit", .str "km")]
    let options : Value := .object
      [("filters", .entry "filterGeoPoint" (.object point)), ("sort", .entry "place" (.object payload))]
    ∃ c, (compile {} false options).result = .ok c ∧
      (∃ p : GeoPoint, p.IsGiven point ∧ p.clause ∈ (compile {} false options).effects.clauses ∧
        p.KeptIn p.clause) ∧
      ∃ e, c.sort = some [e] ∧
        Sort.DistanceKept "place" (.list [.float 1.5, .float 2.5]) payload e := by
  intro point payload options
  have hcompiled : ∃ c, (compile {} false options).result = .ok c := ⟨_, rfl⟩
  obtain ⟨c, hc⟩ := hcompiled
  obtain ⟨o, ho, hclause, hgiven, hentry, hsort⟩ := geo_parameters_kept hc
  have hlist : o.sort = some [("place", .object payload)] := by
    cases ho
    rfl
  refine ⟨c, hc, ?point, ?sort⟩
  case point =>
    obtain ⟨p, hp, hpoint⟩ := hgiven _ _ _ rfl rfl rfl
    obtain ⟨v, hv, hfield⟩ := hpoint.field
    cases hv
    have hname : p.field ≠ "distance" := by
      rw [← Validated.valid.inj hfield]
      decide
    exact ⟨p, hpoint, (hclause p hp).1, (hclause p hp).2.2 hname⟩
  case sort =>
    obtain ⟨es, hes, hall⟩ := hsort _ hlist
    obtain ⟨e, rfl⟩ : ∃ e, es = [e] := List.length_eq_one_iff.1 hall.length_eq.symm
    obtain ⟨he, -⟩ := List.forall₂_cons.1 hall
    obtain ⟨e', he', -, hkept⟩ := hentry "place" (.object payload) payload _ _ rfl rfl rfl rfl
    cases he.symm.trans he'
    exact ⟨e, hes, hkept.2 (Sort.apart_of_not_mem (by decide) _ _)⟩

/-- A field that is called as a parameter is compiled all the same. The filter has no distance then,
and the entry of the sort list no point. -/
theorem geo_parameters_lost :
    let point : Entries := [("field", .str "distance"), ("distance", .str "5km"),
      ("geoPoint", .list [.float 1.5, .float 2.5])]
    let filtered : Value := .entry "filters" (.entry "filterGeoPoint" (.object point))
    let payload : Entries := [("is_geo", .bool true), ("pin", .list [.int 1, .int 2])]
    let sorted : Value := .entry "sort" (.entry "order" (.object payload))
    (∃ (c : CompiledOptions) (p : GeoPoint) (clause : Value),
      (compile {} false filtered).result = .ok c ∧ p.IsGiven point ∧
        (compile {} false filtered).effects.clauses = [clause] ∧
        clause = .entry "geo_distance" (.entry "distance" p.place) ∧ ¬p.KeptIn clause) ∧
    ∃ (c : CompiledOptions) (e : Sort.Entry), (compile {} false sorted).result = .ok c ∧
      c.sort = some [e] ∧ e = ("_geo_distance", .entry "order" (.str "asc")) ∧
        ¬Sort.DistanceKept "order" (.list [.int 1, .int 2]) payload e := by
  intro point filtered payload sorted
  let p : GeoPoint := ⟨"distance", .text "5km", 1.5, 2.5⟩
  refine ⟨⟨_, p, p.clause, rfl, GeoPoint.isGiven_of_valid rfl, rfl, rfl, fun h => ?filter⟩,
    _, ("_geo_distance", .entry "order" (.str "asc")), rfl, rfl, rfl, fun h => ?sort⟩
  case filter => exact p.keptIn_clause_iff.1 h rfl
  case sort =>
    have hpin : some (Value.str "asc") = some (.list [.int 1, .int 2]) := h.pin
    simp at hpin

end SearchRequest.Options
