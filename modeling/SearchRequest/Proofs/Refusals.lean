import SearchRequest.Proofs.Accepted
/-
Why options are refused. The set of options is closed at every level: a key that is not known is
reported before anything else, wherever it stands and whatever is wrong beside it. Without one, the
first value that is wrong is reported, and without that the options are read (`Options.refusals`).

What is first is said by `Schema.options`, a table of the fields in the order in which they count,
with the keys that a mapping does not know after its own fields.
-/
namespace SearchRequest

/-! ## What is found in a value -/

/-- What is found in a value: what is wrong with its known parts, and the paths of the keys in it that
are not known. -/
@[ext] structure Findings where
  wrong : List Failure := []
  unknown : List (List String) := []

namespace Findings

instance : EmptyCollection Findings := ⟨{}⟩

instance : Append Findings := ⟨fun a b => ⟨a.wrong ++ b.wrong, a.unknown ++ b.unknown⟩⟩

/-- Findings seen from one level further out. -/
def under (key : String) (f : Findings) : Findings :=
  ⟨f.wrong.map (Failure.under key), f.unknown.map (key :: ·)⟩

@[simp] theorem wrong_empty : (∅ : Findings).wrong = [] := rfl
@[simp] theorem unknown_empty : (∅ : Findings).unknown = [] := rfl

@[simp] theorem wrong_append (a b : Findings) : (a ++ b).wrong = a.wrong ++ b.wrong := rfl
@[simp] theorem unknown_append (a b : Findings) : (a ++ b).unknown = a.unknown ++ b.unknown := rfl

theorem append_assoc (a b c : Findings) : a ++ b ++ c = a ++ (b ++ c) := by
  ext1 <;> simp

/-- What findings are reported as: the first unknown key, or else the first value that is wrong. -/
def failure? (f : Findings) : Option Error :=
  (f.unknown.head?.map fun path => .unknownOption (String.intercalate "." path)).or
    (f.wrong.head?.map .invalidOption)

end Findings

namespace Validated

variable {α β : Type}

/-- What is found by a reading. -/
def findings (v : Validated α) : Findings where
  wrong := v.failures.filter (·.reason != .unknownKey)
  unknown := (v.failures.filter (·.reason == .unknownKey)).map Failure.path

theorem findings_map (f : α → β) (v : Validated α) : (f <$> v).findings = v.findings := by
  cases v <;> rfl

theorem findings_seq (f : Validated (α → β)) (v : Validated α) :
    (f <*> v).findings = f.findings ++ v.findings := by
  have hseq : (f <*> v).failures = f.failures ++ v.failures := failures_apply f v
  ext1 <;> simp [findings, hseq]

theorem findings_seqLeft (v : Validated α) (w : Validated β) :
    (v <* w).findings = v.findings ++ w.findings := by
  have hseq : (v <* w).failures = v.failures ++ w.failures := by
    cases v <;> cases w <;> simp [SeqLeft.seqLeft, map, apply, failures]
  ext1 <;> simp [findings, hseq]

theorem failures_under (part : String) (v : Validated α) :
    (v.under part).failures = v.failures.map (Failure.under part) := by
  cases v <;> rfl

theorem findings_under (part : String) (v : Validated α) :
    (v.under part).findings = v.findings.under part := by
  ext1
  · simp only [findings, failures_under, Findings.under, List.filter_map]
    rfl
  · simp only [findings, failures_under, Findings.under, List.filter_map, List.map_map]
    rfl

/-- A reading that reports no key as unknown. -/
def KnowsAll (v : Validated α) : Prop :=
  ∀ f ∈ v.failures, f.reason ≠ .unknownKey

theorem KnowsAll.findings_eq {v : Validated α} (h : KnowsAll v) : v.findings = ⟨v.failures, []⟩ := by
  ext1
  · exact List.filter_eq_self.2 fun f hf => bne_iff_ne.2 (h f hf)
  · have hnone : v.failures.filter (·.reason == .unknownKey) = [] :=
      List.filter_eq_nil_iff.2 fun f hf hunknown => h f hf (beq_iff_eq.1 hunknown)
    rw [findings, hnone, List.map_nil]

section
variable {v w : Validated α}

theorem knowsAll_valid (a : α) : KnowsAll (valid a) :=
  List.forall_mem_nil _

theorem knowsAll_fail {reason : Reason} (h : reason ≠ .unknownKey) :
    KnowsAll (fail reason : Validated α) :=
  List.forall_mem_singleton.2 h

theorem KnowsAll.map (h : KnowsAll v) (f : α → β) : KnowsAll (v.map f) := by
  rwa [KnowsAll, failures_map]

theorem KnowsAll.under (h : KnowsAll v) (part : String) : KnowsAll (v.under part) := by
  rw [KnowsAll, failures_under]
  exact List.forall_mem_map.2 h

theorem KnowsAll.seq {f : Validated (α → β)} (hf : KnowsAll f) (h : KnowsAll v) :
    KnowsAll (f <*> v) := by
  have hseq : (f <*> v).failures = f.failures ++ v.failures := failures_apply f v
  rw [KnowsAll, hseq]
  exact List.forall_mem_append.2 ⟨hf, h⟩

theorem KnowsAll.orElse (hv : KnowsAll v) (hw : KnowsAll w) : KnowsAll (v.orElse w) := by
  cases v with
  | valid a => exact hv
  | invalid first more =>
    cases w with
    | valid a => exact hw
    | invalid first' more' => exact List.forall_mem_append.2 ⟨hv, hw⟩

theorem KnowsAll.andThen (hv : KnowsAll v) {f : α → Validated β} (hf : ∀ a, KnowsAll (f a)) :
    KnowsAll (v.andThen f) := by
  cases v with
  | valid a => exact hf a
  | invalid first more => exact hv

end

end Validated

/-! ## Values without keys of their own -/

namespace Validate

open Validated (KnowsAll knowsAll_valid knowsAll_fail fail)

/-- Bytes that are read as a text when they are one. -/
theorem knowsAll_decoded {α : Type} {read : String → Validated α} (hread : ∀ s, KnowsAll (read s))
    {reason : Reason} (hreason : reason ≠ .unknownKey) (b : List UInt8) :
    KnowsAll (match Text.ofUtf8? b with
      | some s => read s
      | none => fail reason) := by
  cases Text.ofUtf8? b with
  | some s => exact hread s
  | none => exact knowsAll_fail hreason

theorem knowsAll_any (v : Value) : KnowsAll (any v) := knowsAll_valid v

theorem knowsAll_string (v : Value) : KnowsAll (string v) := by
  cases v with
  | str s => exact knowsAll_valid s
  | bytes b => exact knowsAll_decoded knowsAll_valid (by decide) b
  | _ => exact knowsAll_fail (by decide)

theorem knowsAll_numeralInteger (s : String) : KnowsAll (Numeral.integer s) := by
  unfold Numeral.integer
  repeat' split
  all_goals first | exact knowsAll_valid _ | exact knowsAll_fail (by decide)

theorem knowsAll_integerOfFloat (x : Float) : KnowsAll (integerOfFloat x) := by
  unfold integerOfFloat
  repeat' split
  all_goals first | exact knowsAll_valid _ | exact knowsAll_fail (by decide)

theorem knowsAll_integer (v : Value) : KnowsAll (integer v) := by
  cases v with
  | int i => exact knowsAll_valid i
  | bool b => exact knowsAll_valid (if b then 1 else 0)
  | float x => exact knowsAll_integerOfFloat x
  | str s => exact knowsAll_numeralInteger s
  | bytes b => exact knowsAll_decoded knowsAll_numeralInteger (by decide) b
  | _ => exact knowsAll_fail (by decide)

theorem knowsAll_natural (v : Value) : KnowsAll (natural v) := by
  refine (knowsAll_integer v).andThen fun i => ?_
  split
  · exact knowsAll_fail (by decide)
  · exact knowsAll_valid _

theorem knowsAll_numeralNumber (s : String) : KnowsAll (Numeral.number s) := by
  unfold Numeral.number
  repeat' split
  all_goals first | exact knowsAll_valid _ | exact knowsAll_fail (by decide)

theorem knowsAll_number (v : Value) : KnowsAll (number v) := by
  cases v with
  | float x => exact knowsAll_valid x
  | bool b => exact knowsAll_valid (if b then 1 else 0)
  | int i =>
    unfold number
    dsimp only
    split
    · exact knowsAll_valid _
    · exact knowsAll_fail (by decide)
  | str s => exact knowsAll_numeralNumber s
  | bytes b => exact knowsAll_decoded knowsAll_numeralNumber (by decide) b
  | _ => exact knowsAll_fail (by decide)

theorem knowsAll_booleanOfText (s : String) : KnowsAll (booleanOfText s) := by
  unfold booleanOfText
  split
  · exact knowsAll_valid _
  · exact knowsAll_fail (by decide)

theorem knowsAll_booleanOfInt (i : Int) : KnowsAll (booleanOfInt i) := by
  unfold booleanOfInt
  repeat' split
  all_goals first | exact knowsAll_valid _ | exact knowsAll_fail (by decide)

theorem knowsAll_boolean (v : Value) : KnowsAll (boolean v) := by
  cases v with
  | bool b => exact knowsAll_valid b
  | int i => exact knowsAll_booleanOfInt i
  | float x =>
    unfold boolean
    dsimp only
    split
    · exact knowsAll_booleanOfInt _
    · exact knowsAll_fail (by decide)
  | str s => exact knowsAll_booleanOfText s
  | bytes b => exact knowsAll_decoded knowsAll_booleanOfText (by decide) b
  | _ => exact knowsAll_fail (by decide)

theorem knowsAll_list (v : Value) : KnowsAll (list v) := by
  unfold list
  split
  · exact knowsAll_valid _
  · exact knowsAll_fail (by decide)

theorem knowsAll_mapping (v : Value) : KnowsAll (mapping v) := by
  unfold mapping
  split
  · exact knowsAll_valid _
  · exact knowsAll_fail (by decide)

theorem knowsAll_distance (v : Value) : KnowsAll (distance v) := by
  unfold distance
  split
  case h_4 =>
    exact (((knowsAll_string _).map _).under _).orElse
      ((((knowsAll_integer _).map _).under _).orElse (((knowsAll_number _).map _).under _))
  all_goals exact knowsAll_valid _

theorem knowsAll_seed (v : Value) : KnowsAll (seed v) := by
  unfold seed
  split
  case h_3 =>
    exact (((knowsAll_integer _).map _).under _).orElse (((knowsAll_string _).map _).under _)
  all_goals exact knowsAll_valid _

theorem knowsAll_refresh (v : Value) : KnowsAll (refresh v) := by
  have hwords : KnowsAll (fail (.notAmong ["true", "false", "wait_for"]) : Validated Refresh) :=
    knowsAll_fail (by decide)
  unfold refresh
  split
  case h_5 => exact (((knowsAll_boolean _).map _).under _).orElse (hwords.under _)
  all_goals exact knowsAll_valid _

theorem knowsAll_coordinates (v : Value) : KnowsAll (coordinates v) := by
  have hmissing : KnowsAll (Validated.invalid ⟨["1"], .missing⟩ [] : Validated Float) :=
    List.forall_mem_singleton.2 (by decide)
  unfold coordinates
  split
  · exact knowsAll_fail (by decide)
  · exact List.forall_mem_cons.2 ⟨by decide, List.forall_mem_singleton.2 (by decide)⟩
  · exact (((knowsAll_number _).under _).map _).seq hmissing
  · exact (((knowsAll_number _).under _).map _).seq ((knowsAll_number _).under _)
  · exact knowsAll_fail (by simp)

end Validate

/-! ## The fields of options -/

namespace Schema

/-- A field of a mapping: its key, whether it has to be there, and what is found in its value. A field
that does not have to be there may also be null. -/
structure Field where
  key : String
  needed : Bool
  found : Value → Findings

/-- What is found in the field of a mapping. -/
def Field.findings (f : Field) (es : Entries) : Findings :=
  match Entries.find? f.key es with
  | none => if f.needed then { wrong := [⟨[f.key], .missing⟩] } else ∅
  | some v => if !f.needed && v.isNull then ∅ else (f.found v).under f.key

/-- What is found in a field depends on its key alone. -/
theorem Field.findings_congr {f : Field} {es es' : Entries}
    (h : Entries.find? f.key es = Entries.find? f.key es') : f.findings es = f.findings es' := by
  unfold Field.findings
  rw [h]

/-- What is found in a mapping: first in its fields, in order, and then the keys that are none of
them. -/
def findings (fields : List Field) (es : Entries) : Findings :=
  fields.foldr (fun f found => f.findings es ++ found)
    { unknown := ((Entries.keys es).filter (!(fields.map Field.key).contains ·)).map ([·]) }

/-- What is found in a value without keys of its own. -/
def leaf {α : Type} (check : Value → Validated α) (v : Value) : Findings :=
  { wrong := (check v).failures }

/-- What is found in a value that is typed or a mapping. -/
def mapping (typeName : String) (isTyped : Value → Bool) (fields : List Field) : Value → Findings
  | .object es => findings fields es
  | v => if isTyped v then ∅ else { wrong := [⟨[], .notRecord typeName⟩] }

/-- A field that has to be there. -/
def needed (key : String) (found : Value → Findings) : Field :=
  ⟨key, true, found⟩

/-- A field that may be absent or null. -/
def free (key : String) (found : Value → Findings) : Field :=
  ⟨key, false, found⟩

/-- The fields of a geographic box. -/
def geoBox : List Field :=
  [needed "field" (leaf Validate.string), needed "topLeft" (leaf Validate.any),
    needed "bottomRight" (leaf Validate.any)]

/-- The fields of a geographic point. -/
def geoPoint : List Field :=
  [needed "field" (leaf Validate.string), needed "distance" (leaf Validate.distance),
    needed "geoPoint" (leaf Validate.coordinates)]

/-- What is found in a geographic box. -/
def geoBoxValue : Value → Findings :=
  mapping "GeoBoxFilter" (· matches .geoBox _) geoBox

/-- What is found in a geographic point. -/
def geoPointValue : Value → Findings :=
  mapping "GeoPointFilter" (· matches .geoPoint _) geoPoint

/-- The fields of geographic filters. -/
def geoFilters : List Field :=
  [free "filterGeoBox" geoBoxValue, free "filterGeoPoint" geoPointValue]

/-- What is found in geographic filters. -/
def geoFiltersValue : Value → Findings :=
  mapping "FilterOptions" (· matches .geoFilters _) geoFilters

/-- The fields of a random score. -/
def randomScore : List Field :=
  [needed "column" (leaf Validate.string), needed "seed" (leaf Validate.seed)]

/-- What is found in a random score. -/
def randomScoreValue : Value → Findings :=
  mapping "RandomScore" (· matches .randomScore _) randomScore

/-- The fields of options, those of a request that may write when `write`. -/
def options (write : Bool) : List Field :=
  [free "limit" (leaf Validate.natural), free "skip" (leaf Validate.natural),
    free "sort" (leaf Validate.mapping), free "search_after" (leaf Validate.list),
    free "prev_search_after" (leaf Validate.any), free "minScore" (leaf Validate.number),
    free "filters" geoFiltersValue, free "highlights" (leaf Validate.mapping),
    free "random_score" randomScoreValue, free "multiple" (leaf Validate.any),
    free "searchOptions" (leaf Validate.any)] ++
    if write then [free "refresh" (leaf Validate.refresh)] else []

/-! ### Reading finds what the fields say -/

section
variable {α : Type} {check : Value → Validated α} {found : Value → Findings}

theorem findings_leaf (h : ∀ v, (check v).KnowsAll) (v : Value) :
    (check v).findings = leaf check v :=
  (h v).findings_eq

theorem findings_required (h : ∀ v, (check v).findings = found v) (es : Entries) (key : String) :
    (Validated.required es key check).findings = (needed key found).findings es := by
  cases hv : Entries.find? key es with
  | none => simp [Validated.required, Field.findings, needed, hv]; rfl
  | some v =>
    simp [Validated.required, Field.findings, needed, hv, Validated.findings_under, h]

theorem findings_optional (h : ∀ v, (check v).findings = found v) (es : Entries) (key : String) :
    (Validated.optional es key none (Validate.nullable check)).findings =
      (free key found).findings es := by
  cases hv : Entries.find? key es with
  | none => simp [Validated.optional, Field.findings, free, hv]; rfl
  | some v =>
    by_cases hnull : v = .null
    · subst hnull
      simp [Validated.optional, Field.findings, free, hv, Value.isNull, Validate.nullable]; rfl
    · have hisNull : v.isNull = false := by
        cases v <;> first | rfl | exact absurd rfl hnull
      simp [Validated.optional, Field.findings, free, hv, hisNull,
        Validate.nullable_of_ne_null hnull, Validated.findings_under, Validated.findings_map, h]

end

theorem findings_onlyKeys (known : List String) (es : Entries) :
    (Validated.onlyKeys known es).findings =
      { unknown := ((Entries.keys es).filter (!known.contains ·)).map ([·]) } := by
  have hfailures : (Validated.onlyKeys known es).failures =
      ((Entries.keys es).filter (!known.contains ·)).map fun k => ⟨[k], .unknownKey⟩ := by
    have hmap : es.filterMap (fun e => if known.contains e.1 then none
        else some (⟨[e.1], .unknownKey⟩ : Failure)) =
          ((Entries.keys es).filter (!known.contains ·)).map fun k => ⟨[k], .unknownKey⟩ := by
      induction es with
      | nil => rfl
      | cons e es ih =>
        cases hk : known.contains e.1 <;> simp_all [Entries.keys]
    unfold Validated.onlyKeys
    split <;> rename_i h <;> rw [← hmap, h] <;> rfl
  ext1 <;> simp [Validated.findings, hfailures, List.filter_map, Function.comp_def]

theorem findings_geoBox (es : Entries) :
    (Validate.geoBox es).findings = findings geoBox es := by
  simp only [Validate.geoBox, Validated.findings_seqLeft, Validated.findings_seq,
    Validated.findings_map, findings_required (findings_leaf Validate.knowsAll_string),
    findings_required (findings_leaf Validate.knowsAll_any), findings_onlyKeys,
    Findings.append_assoc]
  rfl

theorem findings_geoPoint (es : Entries) :
    (Validate.geoPoint es).findings = findings geoPoint es := by
  simp only [Validate.geoPoint, Validated.findings_seqLeft, Validated.findings_seq,
    Validated.findings_map, findings_required (findings_leaf Validate.knowsAll_string),
    findings_required (findings_leaf Validate.knowsAll_distance),
    findings_required (findings_leaf Validate.knowsAll_coordinates), findings_onlyKeys,
    Findings.append_assoc]
  rfl

theorem findings_geoBoxValue (v : Value) :
    (Validate.geoBoxValue v).findings = geoBoxValue v := by
  cases v with
  | object es => exact findings_geoBox es
  | _ => rfl

theorem findings_geoPointValue (v : Value) :
    (Validate.geoPointValue v).findings = geoPointValue v := by
  cases v with
  | object es => exact findings_geoPoint es
  | _ => rfl

theorem findings_geoFilters (es : Entries) :
    (Validate.geoFilters es).findings = findings geoFilters es := by
  simp only [Validate.geoFilters, Validated.findings_seqLeft, Validated.findings_seq,
    Validated.findings_map, findings_optional findings_geoBoxValue,
    findings_optional findings_geoPointValue, findings_onlyKeys, Findings.append_assoc]
  rfl

theorem findings_geoFiltersValue (v : Value) :
    (Validate.geoFiltersValue v).findings = geoFiltersValue v := by
  cases v with
  | object es => exact findings_geoFilters es
  | _ => rfl

theorem findings_randomScore (es : Entries) :
    (Validate.randomScore es).findings = findings randomScore es := by
  simp only [Validate.randomScore, Validated.findings_seqLeft, Validated.findings_seq,
    Validated.findings_map, findings_required (findings_leaf Validate.knowsAll_string),
    findings_required (findings_leaf Validate.knowsAll_seed), findings_onlyKeys,
    Findings.append_assoc]
  rfl

theorem findings_randomScoreValue (v : Value) :
    (Validate.randomScoreValue v).findings = randomScoreValue v := by
  cases v with
  | object es => exact findings_randomScore es
  | _ => rfl

theorem findings_writeControl (es : Entries) :
    ((Validate.writeControl es).map some).findings =
      (free "refresh" (leaf Validate.refresh)).findings es := by
  have hmap := Validated.findings_map some (Validate.writeControl es)
  rw [← findings_optional (findings_leaf Validate.knowsAll_refresh)]
  exact hmap.trans (Validated.findings_map ..)

/-- Reading options finds what their fields say. -/
theorem findings_options (write : Bool) (es : Entries) :
    (Options.ofEntries write es).findings = findings (options write) es := by
  simp only [Options.ofEntries, Validated.findings_seqLeft, Validated.findings_seq,
    Validated.findings_map, findings_optional (findings_leaf Validate.knowsAll_natural),
    findings_optional (findings_leaf Validate.knowsAll_mapping),
    findings_optional (findings_leaf Validate.knowsAll_list),
    findings_optional (findings_leaf Validate.knowsAll_any),
    findings_optional (findings_leaf Validate.knowsAll_number),
    findings_optional findings_geoFiltersValue, findings_optional findings_randomScoreValue,
    findings_onlyKeys, Findings.append_assoc]
  cases write with
  | true =>
    simp only [if_true, findings_writeControl]
    rfl
  | false => rfl

/-- What is wrong with a mapping is what is wrong with its fields, in their order. -/
theorem wrong_findings (fields : List Field) (es : Entries) :
    (findings fields es).wrong = fields.flatMap fun f => (f.findings es).wrong := by
  have hfold : ∀ last : Findings, last.wrong = [] →
      (fields.foldr (fun f found => f.findings es ++ found) last).wrong =
        fields.flatMap fun f => (f.findings es).wrong := by
    intro last hlast
    induction fields with
    | nil => exact hlast
    | cons f fields ih => rw [List.foldr_cons, Findings.wrong_append, ih, List.flatMap_cons]
  exact hfold _ rfl

/-! ### Keys that are not known -/

theorem mem_unknown_field {f : Field} {es : Entries} {path : List String} :
    path ∈ (f.findings es).unknown ↔ ∃ v rest, Entries.find? f.key es = some v ∧
      (f.needed = true ∨ v.isNull = false) ∧ rest ∈ (f.found v).unknown ∧ path = f.key :: rest := by
  unfold Field.findings
  cases hv : Entries.find? f.key es with
  | none => cases f.needed <;> simp
  | some v =>
    by_cases hread : f.needed = true ∨ v.isNull = false
    · have hread' : (!f.needed && v.isNull) = false := by
        rcases hread with h | h <;> simp [h]
      simp only [hread', Bool.false_eq_true, if_false, Findings.under, List.mem_map]
      constructor
      · rintro ⟨rest, hrest, rfl⟩
        exact ⟨v, rest, rfl, hread, hrest, rfl⟩
      · rintro ⟨v', rest, hv', -, hrest, rfl⟩
        cases hv'
        exact ⟨rest, hrest, rfl⟩
    · have hskip : (!f.needed && v.isNull) = true := by simpa using hread
      simp only [hskip, if_true, Findings.unknown_empty, List.not_mem_nil, false_iff]
      rintro ⟨v', rest, hv', hread', -, -⟩
      cases hv'
      exact hread hread'

theorem mem_unknown_findings {fields : List Field} {es : Entries} {path : List String} :
    path ∈ (findings fields es).unknown ↔
      (∃ f ∈ fields, path ∈ (f.findings es).unknown) ∨
        ∃ k ∈ Entries.keys es, k ∉ fields.map Field.key ∧ path = [k] := by
  have hfold : ∀ last : Findings, ∀ fields : List Field,
      path ∈ (fields.foldr (fun f found => f.findings es ++ found) last).unknown ↔
        (∃ f ∈ fields, path ∈ (f.findings es).unknown) ∨ path ∈ last.unknown := by
    intro last fields
    induction fields with
    | nil => simp
    | cons f fields ih => simp [ih, or_assoc]
  rw [findings, hfold]
  refine or_congr_right ?_
  simp only [List.mem_map, List.mem_filter, Bool.not_eq_true', List.contains_eq_mem,
    decide_eq_false_iff_not]
  constructor
  · rintro ⟨k, ⟨hk, hknown⟩, rfl⟩
    exact ⟨k, hk, hknown, rfl⟩
  · rintro ⟨k, hk, hknown, rfl⟩
    exact ⟨k, ⟨hk, hknown⟩, rfl⟩

theorem mem_unknown_mapping {typeName : String} {isTyped : Value → Bool} {fields : List Field}
    {v : Value} {path : List String} :
    path ∈ (mapping typeName isTyped fields v).unknown ↔
      ∃ es, v = .object es ∧ path ∈ (findings fields es).unknown := by
  cases v with
  | object es => simp [mapping]
  | _ => simp only [mapping]; split <;> simp

theorem mem_unknown_free_mapping {key typeName : String} {isTyped : Value → Bool}
    {fields : List Field} {es : Entries} {path : List String} :
    path ∈ ((free key (mapping typeName isTyped fields)).findings es).unknown ↔
      ∃ m rest, Entries.find? key es = some (.object m) ∧ rest ∈ (findings fields m).unknown ∧
        path = key :: rest := by
  rw [mem_unknown_field]
  constructor
  · rintro ⟨v, rest, hv, -, hrest, rfl⟩
    obtain ⟨m, rfl, hm⟩ := mem_unknown_mapping.1 hrest
    exact ⟨m, rest, hv, hm, rfl⟩
  · rintro ⟨m, rest, hv, hrest, rfl⟩
    exact ⟨_, rest, hv, .inr rfl, mem_unknown_mapping.2 ⟨m, rfl, hrest⟩, rfl⟩

/-- Where no value has keys of its own, only the keys of the mapping itself can be unknown. -/
theorem mem_unknown_leaves {fields : List Field} (h : ∀ f ∈ fields, ∀ v, (f.found v).unknown = [])
    {es : Entries} {path : List String} :
    path ∈ (findings fields es).unknown ↔
      ∃ k ∈ Entries.keys es, k ∉ fields.map Field.key ∧ path = [k] := by
  rw [mem_unknown_findings, or_iff_right]
  rintro ⟨f, hf, hpath⟩
  obtain ⟨v, rest, -, -, hrest, -⟩ := mem_unknown_field.1 hpath
  rw [h f hf v] at hrest
  cases hrest

theorem geoBox_leaves : ∀ f ∈ geoBox, ∀ v, (f.found v).unknown = [] := by
  simp [geoBox, needed, leaf]

theorem geoPoint_leaves : ∀ f ∈ geoPoint, ∀ v, (f.found v).unknown = [] := by
  simp [geoPoint, needed, leaf]

theorem randomScore_leaves : ∀ f ∈ randomScore, ∀ v, (f.found v).unknown = [] := by
  simp [randomScore, needed, leaf]

theorem keys_options (write : Bool) : (options write).map Field.key = Options.keys write := by
  cases write <;> rfl

theorem mem_unknown_geoFilters {es : Entries} {path : List String} :
    path ∈ (findings geoFilters es).unknown ↔
      path ∈ ((free "filterGeoBox" geoBoxValue).findings es).unknown ∨
      path ∈ ((free "filterGeoPoint" geoPointValue).findings es).unknown ∨
      ∃ k ∈ Entries.keys es, k ∉ geoFilters.map Field.key ∧ path = [k] := by
  simp [mem_unknown_findings, geoFilters, or_assoc]

/-- Filters and a random score are the only options with keys of their own. -/
theorem mem_unknown_options {write : Bool} {es : Entries} {path : List String} :
    path ∈ (findings (options write) es).unknown ↔
      path ∈ ((free "filters" geoFiltersValue).findings es).unknown ∨
      path ∈ ((free "random_score" randomScoreValue).findings es).unknown ∨
      ∃ k ∈ Entries.keys es, k ∉ Options.keys write ∧ path = [k] := by
  have hleaf : ∀ {α : Type} (key : String) (check : Value → Validated α),
      path ∉ ((free key (leaf check)).findings es).unknown := by
    intro α key check hpath
    obtain ⟨v, rest, -, -, hrest, -⟩ := mem_unknown_field.1 hpath
    cases hrest
  rw [mem_unknown_findings, keys_options]
  cases write <;> simp [options, hleaf, or_assoc]

end Schema

namespace Options

/-- A mapping in options, with its path and the keys that it knows. -/
inductive HoldsMapping (write : Bool) (es : Entries) : List String → List String → Entries → Prop
  | options : HoldsMapping write es [] (keys write) es
  | filters {fs : Entries} (hfilters : Entries.find? "filters" es = some (.object fs)) :
      HoldsMapping write es ["filters"] ["filterGeoBox", "filterGeoPoint"] fs
  | geoBox {fs box : Entries} (hfilters : Entries.find? "filters" es = some (.object fs))
      (hbox : Entries.find? "filterGeoBox" fs = some (.object box)) :
      HoldsMapping write es ["filters", "filterGeoBox"] ["field", "topLeft", "bottomRight"] box
  | geoPoint {fs point : Entries} (hfilters : Entries.find? "filters" es = some (.object fs))
      (hpoint : Entries.find? "filterGeoPoint" fs = some (.object point)) :
      HoldsMapping write es ["filters", "filterGeoPoint"] ["field", "distance", "geoPoint"] point
  | randomScore {score : Entries}
      (hscore : Entries.find? "random_score" es = some (.object score)) :
      HoldsMapping write es ["random_score"] ["column", "seed"] score

/-- The path of a key that the mapping around it does not know. -/
def UnknownAt (write : Bool) (es : Entries) (path : List String) : Prop :=
  ∃ place known m k, HoldsMapping write es place known m ∧ k ∈ Entries.keys m ∧ k ∉ known ∧
    path = place ++ [k]

theorem mem_unknown_iff {write : Bool} {es : Entries} {path : List String} :
    path ∈ (Schema.findings (Schema.options write) es).unknown ↔ UnknownAt write es path := by
  rw [Schema.mem_unknown_options]
  simp only [Schema.geoFiltersValue, Schema.geoBoxValue, Schema.geoPointValue,
    Schema.randomScoreValue, Schema.mem_unknown_free_mapping, Schema.mem_unknown_geoFilters,
    Schema.mem_unknown_leaves Schema.geoBox_leaves,
    Schema.mem_unknown_leaves Schema.geoPoint_leaves,
    Schema.mem_unknown_leaves Schema.randomScore_leaves]
  constructor
  · rintro (⟨fs, _, hfs, (⟨box, _, hbox, ⟨k, hk, hknown, rfl⟩, rfl⟩ |
      ⟨point, _, hpoint, ⟨k, hk, hknown, rfl⟩, rfl⟩ | ⟨k, hk, hknown, rfl⟩), rfl⟩ |
      ⟨score, _, hscore, ⟨k, hk, hknown, rfl⟩, rfl⟩ | ⟨k, hk, hknown, rfl⟩)
    · exact ⟨_, _, box, k, .geoBox hfs hbox, hk, hknown, rfl⟩
    · exact ⟨_, _, point, k, .geoPoint hfs hpoint, hk, hknown, rfl⟩
    · exact ⟨_, _, fs, k, .filters hfs, hk, hknown, rfl⟩
    · exact ⟨_, _, score, k, .randomScore hscore, hk, hknown, rfl⟩
    · exact ⟨_, _, es, k, .options, hk, hknown, rfl⟩
  · rintro ⟨place, known, m, k, hplace, hk, hknown, rfl⟩
    cases hplace with
    | options => exact .inr (.inr ⟨k, hk, hknown, rfl⟩)
    | filters hfs => exact .inl ⟨m, _, hfs, .inr (.inr ⟨k, hk, hknown, rfl⟩), rfl⟩
    | @geoBox fs _ hfs hbox =>
      exact .inl ⟨fs, _, hfs, .inl ⟨m, _, hbox, ⟨k, hk, hknown, rfl⟩, rfl⟩, rfl⟩
    | @geoPoint fs _ hfs hpoint =>
      exact .inl ⟨fs, _, hfs, .inr (.inl ⟨m, _, hpoint, ⟨k, hk, hknown, rfl⟩, rfl⟩), rfl⟩
    | randomScore hscore => exact .inr (.inl ⟨m, _, hscore, ⟨k, hk, hknown, rfl⟩, rfl⟩)

end Options

/-! ## The report -/

namespace Options

/-- Options are refused, with a report of some kind that names an option. -/
def Refuses (write : Bool) (es : Entries) (kind : ErrorKind) (location : String) : Prop :=
  ∃ e r, read write (.object es) = .error e ∧ e.report? = some r ∧ r.kind = kind ∧
    Entries.find? "option" r.details = some (.str location)

theorem refuses_unknown_iff {write : Bool} {es : Entries} {location : String}
    (h : read write (.object es) = .error (.unknownOption location)) {kind : ErrorKind}
    {location' : String} :
    Refuses write es kind location' ↔ kind = .unrecognizedOption ∧ location' = location := by
  constructor
  · rintro ⟨e, r, he, hr, rfl, hlocation⟩
    cases h.symm.trans he
    cases hr
    cases hlocation
    exact ⟨rfl, rfl⟩
  · rintro ⟨rfl, rfl⟩
    exact ⟨_, _, h, rfl, rfl, rfl⟩

theorem refuses_invalid_iff {write : Bool} {es : Entries} {f : Failure}
    (h : read write (.object es) = .error (.invalidOption f)) {kind : ErrorKind}
    {location : String} :
    Refuses write es kind location ↔ kind = .invalidOption ∧ location = f.location := by
  constructor
  · rintro ⟨e, r, he, hr, rfl, hlocation⟩
    cases h.symm.trans he
    cases hr
    cases hlocation
    exact ⟨rfl, rfl⟩
  · rintro ⟨rfl, rfl⟩
    exact ⟨_, _, h, rfl, rfl, rfl⟩

theorem not_refuses {write : Bool} {es : Entries} {o : Options Value}
    (h : read write (.object es) = .ok o) (kind : ErrorKind) (location : String) :
    ¬Refuses write es kind location := by
  rintro ⟨e, -, he, -⟩
  cases h.symm.trans he

/-- What reading options comes to: the first unknown key, or else the first wrong value, or else
options. -/
theorem read_cases (write : Bool) (es : Entries) :
    let found := Schema.findings (Schema.options write) es
    (∃ path, found.unknown.head? = some path ∧
      read write (.object es) = .error (.unknownOption (String.intercalate "." path))) ∨
    (found.unknown = [] ∧ ∃ f, found.wrong.head? = some f ∧
      read write (.object es) = .error (.invalidOption f)) ∨
    (found.unknown = [] ∧ found.wrong = [] ∧ ∃ o, read write (.object es) = .ok o) := by
  intro found
  have hfound : (ofEntries write es).findings = found := Schema.findings_options write es
  rw [← hfound]
  cases hread : ofEntries write es with
  | valid o => exact .inr (.inr ⟨rfl, rfl, o, readEntries_eq_ok_iff.2 (ofEntries_eq_valid_iff.1 hread)⟩)
  | invalid first more =>
    have herror : read write (.object es) = .error (.ofOptionFailures first more) :=
      readEntries_of_invalid hread
    rw [herror, Error.ofOptionFailures]
    cases hfind : (first :: more).find? (·.reason == .unknownKey) with
    | some f =>
      refine .inl ⟨f.path, ?_, rfl⟩
      simp only [Validated.findings, Validated.failures, List.head?_map, List.head?_filter, hfind,
        Option.map_some]
    | none =>
      -- No failure is about an unknown key, so the first failure of all is the first of the rest.
      have hknown : (Validated.invalid first more : Validated (Options Value)).KnowsAll :=
        fun f hf hunknown => List.find?_eq_none.1 hfind f hf (beq_iff_eq.2 hunknown)
      rw [hknown.findings_eq]
      exact .inr (.inl ⟨rfl, first, rfl, rfl⟩)

/-- Reading options fails with what is found in them. -/
theorem read_error_iff {write : Bool} {es : Entries} {e : Error} :
    read write (.object es) = .error e ↔
      (Schema.findings (Schema.options write) es).failure? = some e := by
  unfold Findings.failure?
  obtain ⟨path, hhead, hread⟩ | ⟨hunknown, f, hhead, hread⟩ | ⟨hunknown, hwrong, o, hread⟩ :=
    read_cases write es
  · rw [hread, hhead]
    simp
  · rw [hread, hunknown, hhead]
    simp
  · rw [hread, hunknown, hwrong]
    simp

section
variable {write : Bool} {es : Entries} {location : String}

theorem refuses_unrecognizedOption_iff :
    Refuses write es .unrecognizedOption location ↔
      ∃ path, (Schema.findings (Schema.options write) es).unknown.head? = some path ∧
        location = String.intercalate "." path := by
  obtain ⟨path, hhead, hread⟩ | ⟨hunknown, f, -, hread⟩ | ⟨hunknown, -, o, hread⟩ :=
    read_cases write es
  · rw [refuses_unknown_iff hread]
    constructor
    · rintro ⟨-, rfl⟩
      exact ⟨path, hhead, rfl⟩
    · rintro ⟨path', hhead', rfl⟩
      cases hhead.symm.trans hhead'
      exact ⟨rfl, rfl⟩
  · rw [refuses_invalid_iff hread, hunknown]
    exact iff_of_false (fun h => nomatch h.1) fun ⟨_, h, _⟩ => nomatch h
  · rw [hunknown]
    exact iff_of_false (not_refuses hread _ _) fun ⟨_, h, _⟩ => nomatch h

theorem refuses_invalidOption_iff :
    Refuses write es .invalidOption location ↔
      (Schema.findings (Schema.options write) es).unknown = [] ∧
        ∃ f, (Schema.findings (Schema.options write) es).wrong.head? = some f ∧
          location = f.location := by
  obtain ⟨path, hhead, hread⟩ | ⟨hunknown, f, hhead, hread⟩ | ⟨-, hwrong, o, hread⟩ :=
    read_cases write es
  · rw [refuses_unknown_iff hread]
    refine iff_of_false (fun h => nomatch h.1) fun h => ?_
    cases hhead.symm.trans (congrArg List.head? h.1)
  · rw [refuses_invalid_iff hread]
    constructor
    · rintro ⟨-, rfl⟩
      exact ⟨hunknown, f, hhead, rfl⟩
    · rintro ⟨-, f', hhead', rfl⟩
      cases hhead.symm.trans hhead'
      exact ⟨rfl, rfl⟩
  · rw [hwrong]
    exact iff_of_false (not_refuses hread _ _) fun ⟨_, _, h, _⟩ => nomatch h

theorem read_ok_iff :
    (∃ o, read write (.object es) = .ok o) ↔
      (Schema.findings (Schema.options write) es).unknown = [] ∧
        (Schema.findings (Schema.options write) es).wrong = [] := by
  obtain ⟨path, hhead, hread⟩ | ⟨-, f, hhead, hread⟩ | ⟨hunknown, hwrong, o, hread⟩ :=
    read_cases write es
  · refine iff_of_false (fun ⟨o, ho⟩ => nomatch hread.symm.trans ho) fun h => ?_
    cases hhead.symm.trans (congrArg List.head? h.1)
  · refine iff_of_false (fun ⟨o, ho⟩ => nomatch hread.symm.trans ho) fun h => ?_
    cases hhead.symm.trans (congrArg List.head? h.2)
  · exact iff_of_true ⟨o, hread⟩ ⟨hunknown, hwrong⟩

end

-- The key of an attribute is not known. It counts before the unknown key at the top, and before the
-- values that are wrong or missing.
example : read false (.object [("offset", .int 1), ("limit", .int (-1)), ("filters", .object
    [("filterGeoBox", .object [("field", .int 1), ("top_left", .str "a")])])]) =
      .error (.unknownOption "filters.filterGeoBox.top_left") := rfl

end Options

end SearchRequest
