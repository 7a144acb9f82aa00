import SearchRequest.Options.Read
import SearchRequest.Proofs.Entries
/-
What it takes to be read. Parts that are read side by side are read exactly when each of them is,
and a mapping is read as options exactly when each of their fields is and it has no other key
(`Options.ofEntries_eq_valid_iff`).
-/
namespace SearchRequest

namespace Validated

variable {α β V : Type}

theorem map_eq_valid_iff {f : α → β} {v : Validated α} {b : β} :
    f <$> v = valid b ↔ ∃ a, v = valid a ∧ f a = b := by
  cases v <;> simp [Functor.map, map]

theorem seq_eq_valid_iff {f : Validated (α → β)} {v : Validated α} {b : β} :
    f <*> v = valid b ↔ ∃ g, f = valid g ∧ ∃ a, v = valid a ∧ g a = b := by
  cases f <;> cases v <;> simp [Seq.seq, apply]

theorem seqLeft_eq_valid_iff {v : Validated α} {w : Validated β} {a : α} :
    v <* w = valid a ↔ v = valid a ∧ ∃ b, w = valid b := by
  cases v <;> cases w <;> simp [SeqLeft.seqLeft, map, apply]

theorem under_eq_valid_iff {part : String} {v : Validated α} {a : α} :
    v.under part = valid a ↔ v = valid a := by
  cases v <;> simp [under]

theorem optional_eq_valid_iff {es : List (String × V)} {key : String} {default b : β}
    {check : V → Validated β} :
    optional es key default check = valid b ↔
      (Entries.find? key es = none ∧ default = b) ∨
        ∃ v, Entries.find? key es = some v ∧ check v = valid b := by
  cases h : Entries.find? key es <;> simp [optional, h, under_eq_valid_iff]

theorem required_eq_valid_iff {es : List (String × V)} {key : String} {b : β}
    {check : V → Validated β} :
    required es key check = valid b ↔ ∃ v, Entries.find? key es = some v ∧ check v = valid b := by
  cases h : Entries.find? key es <;> simp [required, h, under_eq_valid_iff]

theorem onlyKeys_eq_valid_iff {known : List String} {es : List (String × V)} :
    onlyKeys known es = valid () ↔ ∀ e ∈ es, e.1 ∈ known := by
  unfold onlyKeys
  split
  case h_1 hnone =>
    have hall : ∀ e ∈ es, e.1 ∈ known := by simpa [List.filterMap_eq_nil_iff] using hnone
    exact ⟨fun _ => hall, fun _ => rfl⟩
  case h_2 hsome =>
    refine ⟨(nomatch ·), fun hall => ?_⟩
    obtain ⟨e, he, hunknown⟩ := List.mem_filterMap.1 (hsome ▸ List.mem_cons_self)
    simp [hall e he] at hunknown

/-- When one key is not known, it is the one that is reported. -/
theorem onlyKeys_eq_invalid {known : List String} {es : List (String × V)} {k : String}
    (h : ∀ e ∈ es, e.1 ∈ known ∨ e.1 = k) (hk : k ∉ known) (hmem : k ∈ Entries.keys es) :
    ∃ more, onlyKeys known es = invalid ⟨[k], .unknownKey⟩ more := by
  cases hes : onlyKeys known es with
  | valid u =>
    obtain ⟨e, he, rfl⟩ := List.mem_map.1 hmem
    exact absurd (onlyKeys_eq_valid_iff.1 hes e he) hk
  | invalid first more =>
    refine ⟨more, ?_⟩
    unfold onlyKeys at hes
    split at hes
    · cases hes
    · rename_i hfailures
      cases hes
      obtain ⟨e, he, hfirst⟩ := List.mem_filterMap.1 (hfailures ▸ List.mem_cons_self)
      by_cases hknown : e.1 ∈ known
      · simp [hknown] at hfirst
      · rw [if_neg (by simpa using hknown)] at hfirst
        rw [← Option.some.inj hfirst, (h e he).resolve_left hknown]

end Validated

namespace Validate

open Validated (valid)

variable {α : Type}

/-- A field that may be absent or null. -/
def field (es : Entries) (key : String) (check : Value → Validated α) : Validated (Option α) :=
  Validated.optional es key none (nullable check)

theorem nullable_of_ne_null {v : Value} (h : v ≠ .null) (check : Value → Validated α) :
    nullable check v = some <$> check v := by
  cases v <;> first | rfl | exact absurd rfl h

theorem nullable_eq_valid_some_iff {check : Value → Validated α} {v : Value} {a : α} :
    nullable check v = valid (some a) ↔ v ≠ .null ∧ check v = valid a := by
  by_cases h : v = .null
  · simp [h, nullable]
  · simp [nullable_of_ne_null h, Validated.map_eq_valid_iff, h]

theorem field_eq_valid_some {es : Entries} {key : String} {check : Value → Validated α} {a : α}
    (h : field es key check = valid (some a)) :
    ∃ v, Entries.find? key es = some v ∧ v ≠ .null ∧ check v = valid a := by
  rcases Validated.optional_eq_valid_iff.1 h with ⟨-, h⟩ | ⟨v, hv, h⟩
  · cases h
  · exact ⟨v, hv, nullable_eq_valid_some_iff.1 h⟩

/-- A field with a value other than null is not read as absent. -/
theorem exists_of_field {es : Entries} {key : String} {check : Value → Validated α} {x : Option α}
    (h : field es key check = valid x) {v : Value} (hv : Entries.find? key es = some v)
    (hnull : v ≠ .null) : ∃ a, x = some a := by
  rcases Validated.optional_eq_valid_iff.1 h with ⟨hnone, -⟩ | ⟨v', hv', hread⟩
  · cases hv.symm.trans hnone
  · obtain rfl : v = v' := Option.some.inj (hv.symm.trans hv')
    rw [nullable_of_ne_null hnull] at hread
    obtain ⟨a, -, ha⟩ := Validated.map_eq_valid_iff.1 hread
    exact ⟨a, ha.symm⟩

end Validate

namespace Options

open Validated (valid)
open Validate (field)

/-- What only requests that write may ask for, when asked by one of them. -/
def readWrite (write : Bool) (es : Entries) : Validated (Option WriteControl) :=
  if write then (Validate.writeControl es).map some else valid none

/-- Every field of the options is what is read under its key. -/
structure ReadsFields (write : Bool) (es : Entries) (o : Options Value) : Prop where
  limit : field es "limit" Validate.natural = valid o.limit
  skip : field es "skip" Validate.natural = valid o.skip
  sort : field es "sort" Validate.mapping = valid o.sort
  searchAfter : field es "search_after" Validate.list = valid o.searchAfter
  prevSearchAfter : field es "prev_search_after" Validate.any = valid o.prevSearchAfter
  minScore : field es "minScore" Validate.number = valid o.minScore
  filters : field es "filters" Validate.geoFiltersValue = valid o.filters
  highlights : field es "highlights" Validate.mapping = valid o.highlights
  randomScore : field es "random_score" Validate.randomScoreValue = valid o.randomScore
  multiple : field es "multiple" Validate.any = valid o.multiple
  searchOptions : field es "searchOptions" Validate.any = valid o.searchOptions
  control : readWrite write es = valid o.write

/-- Every field of the options is what is read under its key, and there is no other key. -/
structure Reads (write : Bool) (es : Entries) (o : Options Value) : Prop
    extends ReadsFields write es o where
  keys : ∀ e ∈ es, e.1 ∈ Options.keys write

/-- When all fields are read, the keys decide. -/
theorem ReadsFields.ofEntries_eq {write : Bool} {es : Entries} {o : Options Value}
    (h : ReadsFields write es o) :
    ofEntries write es = valid o <* Validated.onlyKeys (Options.keys write) es := by
  obtain ⟨hlimit, hskip, hsort, hsearchAfter, hprevSearchAfter, hminScore, hfilters, hhighlights,
    hrandomScore, hmultiple, hsearchOptions, hcontrol⟩ := h
  unfold field at *
  unfold readWrite at hcontrol
  simp only [ofEntries, hlimit, hskip, hsort, hsearchAfter, hprevSearchAfter, hminScore, hfilters,
    hhighlights, hrandomScore, hmultiple, hsearchOptions, hcontrol]
  rfl

theorem ofEntries_eq_valid_iff {write : Bool} {es : Entries} {o : Options Value} :
    ofEntries write es = valid o ↔ Reads write es o := by
  constructor
  · -- The fields are taken off from the last one on.
    rw [ofEntries, Validated.seqLeft_eq_valid_iff]
    simp only [Validated.seq_eq_valid_iff, Validated.map_eq_valid_iff]
    rintro ⟨h, hkeys⟩
    obtain ⟨_, h, _, hcontrol, rfl⟩ := h
    obtain ⟨_, h, _, hsearchOptions, rfl⟩ := h
    obtain ⟨_, h, _, hmultiple, rfl⟩ := h
    obtain ⟨_, h, _, hrandomScore, rfl⟩ := h
    obtain ⟨_, h, _, hhighlights, rfl⟩ := h
    obtain ⟨_, h, _, hfilters, rfl⟩ := h
    obtain ⟨_, h, _, hminScore, rfl⟩ := h
    obtain ⟨_, h, _, hprevSearchAfter, rfl⟩ := h
    obtain ⟨_, h, _, hsearchAfter, rfl⟩ := h
    obtain ⟨_, h, _, hsort, rfl⟩ := h
    obtain ⟨_, h, _, hskip, rfl⟩ := h
    obtain ⟨_, hlimit, rfl⟩ := h
    obtain ⟨⟨⟩, hkeys⟩ := hkeys
    exact ⟨⟨hlimit, hskip, hsort, hsearchAfter, hprevSearchAfter, hminScore, hfilters, hhighlights,
      hrandomScore, hmultiple, hsearchOptions, hcontrol⟩,
      Validated.onlyKeys_eq_valid_iff.1 hkeys⟩
  · intro h
    rw [h.ofEntries_eq, Validated.onlyKeys_eq_valid_iff.2 h.keys]
    rfl

theorem readEntries_eq_ok_iff {write : Bool} {es : Entries} {o : Options Value} :
    readEntries write es = .ok o ↔ Reads write es o := by
  rw [← ofEntries_eq_valid_iff]
  unfold readEntries
  cases ofEntries write es <;> simp

theorem readEntries_of_invalid {write : Bool} {es : Entries} {first : Failure} {more : List Failure}
    (h : ofEntries write es = .invalid first more) :
    readEntries write es = .error (.ofOptionFailures first more) := by
  unfold readEntries
  simp only [h]

/-- What only requests that write may ask for is there exactly for these. -/
theorem ReadsFields.isSome_write {write : Bool} {es : Entries} {o : Options Value}
    (h : ReadsFields write es o) : o.write.isSome = write := by
  have hcontrol := h.control
  cases write with
  | false =>
    have hnone : none = o.write := Validated.valid.inj hcontrol
    rw [← hnone]; rfl
  | true =>
    obtain ⟨c, -, hc⟩ := Validated.map_eq_valid_iff.1 hcontrol
    rw [← hc]; rfl

theorem isSome_write_of_read {write : Bool} {v : Value} {o : Options Value}
    (h : read write v = .ok o) : o.write.isSome = write := by
  have hentries : ∀ {es : Entries}, readEntries write es = .ok o → o.write.isSome = write :=
    fun h => (readEntries_eq_ok_iff.1 h).isSome_write
  unfold read at h
  split at h
  · split at h
    · rename_i hwrite
      exact Except.ok.inj h ▸ hwrite
    · split at h
      · exact hentries h
      · cases h
  · exact hentries h
  · exact hentries h
  · cases h

/-- Options that were read are read again as themselves. -/
theorem read_again {write : Bool} {v : Value} {o : Options Value} (h : read write v = .ok o) :
    read write (.options o) = .ok o :=
  read_options (isSome_write_of_read h)

end Options

end SearchRequest
