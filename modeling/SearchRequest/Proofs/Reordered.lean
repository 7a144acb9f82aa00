import Mathlib.Logic.Relator
import SearchRequest.Options.Compile
import SearchRequest.Proofs.Outcome
import SearchRequest.Proofs.Refusals
import SearchRequest.Proofs.Reread
/-
What options say does not depend on how they are written down. Keys may stand in any order, known
options may be left out or be null, and what is kept for callers may be anything: the options
compile alike (`Options.compile_sameOptions`). The order counts where it is part of a value, in a sort
list, and when several keys are not known, because the first of them is named.

Everything is read field by field. Two readings are alike (`Validated.Alike`) when they find the same
and their results are in a relation, and reading side by side keeps readings alike. The relation is
equality for every part, and anything at all for what is kept for callers.
-/
namespace SearchRequest

open scoped Relator

/-! ## Readings that are alike -/

namespace Findings

/-- The same is wrong, and the same keys are not known, in whatever order they are met. -/
structure Alike (f g : Findings) : Prop where
  wrong : f.wrong = g.wrong
  unknown : ∀ path, path ∈ f.unknown ↔ path ∈ g.unknown

namespace Alike

variable {f g f' g' : Findings}

protected theorem refl (f : Findings) : Alike f f :=
  ⟨rfl, fun _ => Iff.rfl⟩

theorem under (h : Alike f g) (key : String) : Alike (f.under key) (g.under key) where
  wrong := congrArg (List.map (Failure.under key)) h.wrong
  unknown path := by
    simp only [Findings.under, List.mem_map, h.unknown]

theorem append (h : Alike f g) (h' : Alike f' g') : Alike (f ++ f') (g ++ g') where
  wrong := by rw [wrong_append, wrong_append, h.wrong, h'.wrong]
  unknown path := by
    simp only [unknown_append, List.mem_append, h.unknown, h'.unknown]

end Alike

end Findings

/-- Errors of one class: the same error, or two reports of one kind. -/
def Error.SameClass (e e' : Error) : Prop :=
  e = e' ∨ ∃ r r', e.report? = some r ∧ e'.report? = some r' ∧ r.kind = r'.kind

namespace Findings.Alike

variable {f g : Findings} (h : Alike f g)
include h

theorem unknown_eq_nil_iff : f.unknown = [] ↔ g.unknown = [] := by
  simp only [List.eq_nil_iff_forall_not_mem, h.unknown]

/-- What is wrong is reported in the same words, and so is one unknown key. Of several, only the kind
of report is known. -/
theorem reported {e : Error} (hf : f.failure? = some e) :
    ∃ e', g.failure? = some e' ∧ e.SameClass e' ∧
      ((∀ path ∈ f.unknown, ∀ path' ∈ f.unknown, path = path') → e' = e) := by
  cases hunknown : f.unknown with
  | nil =>
    have hsame : g.failure? = f.failure? := by
      rw [failure?, failure?, h.unknown_eq_nil_iff.1 hunknown, hunknown, h.wrong]
    exact ⟨e, hsame.trans hf, .inl rfl, fun _ => rfl⟩
  | cons path rest =>
    have hmem : path ∈ f.unknown := by
      rw [hunknown]
      exact List.mem_cons_self
    have he : .unknownOption (String.intercalate "." path) = e := by
      rw [failure?, hunknown] at hf
      exact Option.some.inj hf
    have hne : g.unknown ≠ [] := List.ne_nil_of_mem ((h.unknown path).1 hmem)
    let path' := g.unknown.head hne
    have hg : g.failure? = some (.unknownOption (String.intercalate "." path')) := by
      rw [failure?, List.head?_eq_some_head hne]
      rfl
    refine ⟨_, hg, .inr ?_, fun hone => ?_⟩
    · rw [← he]
      exact ⟨_, _, rfl, rfl, rfl⟩
    · have hmem' : path' ∈ path :: rest := by
        rw [← hunknown]
        exact (h.unknown path').2 (List.head_mem hne)
      rw [← he, hone path' hmem' path List.mem_cons_self]

end Findings.Alike

namespace Validated

variable {α β γ δ : Type}

/-- Two readings that find the same, and whose results are in a relation. -/
structure Alike (R : α → β → Prop) (v : Validated α) (w : Validated β) : Prop where
  findings : v.findings.Alike w.findings
  results : ∀ a b, v = valid a → w = valid b → R a b

namespace Alike

variable {R : α → β → Prop} {S : γ → δ → Prop}

protected theorem refl (v : Validated α) : Alike Eq v v where
  findings := .refl v.findings
  results _ _ ha hb := valid.inj (ha.symm.trans hb)

theorem of_eq {v w : Validated α} (h : v = w) : Alike Eq v w :=
  h ▸ .refl v

theorem under {v : Validated α} {w : Validated β} (h : Alike R v w) (part : String) :
    Alike R (v.under part) (w.under part) where
  findings := by
    rw [findings_under, findings_under]
    exact h.findings.under part
  results a b ha hb := h.results a b (under_eq_valid_iff.1 ha) (under_eq_valid_iff.1 hb)

theorem map {f : α → γ} {g : β → δ} (hfg : (R ⇒ S) f g) {v : Validated α} {w : Validated β}
    (h : Alike R v w) : Alike S (f <$> v) (g <$> w) where
  findings := by
    rw [findings_map, findings_map]
    exact h.findings
  results c d hc hd := by
    obtain ⟨a, ha, rfl⟩ := map_eq_valid_iff.1 hc
    obtain ⟨b, hb, rfl⟩ := map_eq_valid_iff.1 hd
    exact hfg (h.results a b ha hb)

/-- Readings side by side are alike when each of them is. -/
theorem seq {f : Validated (α → γ)} {g : Validated (β → δ)} (hfg : Alike (R ⇒ S) f g)
    {v : Validated α} {w : Validated β} (h : Alike R v w) : Alike S (f <*> v) (g <*> w) where
  findings := by
    rw [findings_seq, findings_seq]
    exact hfg.findings.append h.findings
  results c d hc hd := by
    obtain ⟨f', hf', a, ha, rfl⟩ := seq_eq_valid_iff.1 hc
    obtain ⟨g', hg', b, hb, rfl⟩ := seq_eq_valid_iff.1 hd
    exact hfg.results f' g' hf' hg' (h.results a b ha hb)

theorem seqLeft {v : Validated α} {w : Validated β} (h : Alike R v w) {v' : Validated γ}
    {w' : Validated δ} (h' : Alike S v' w') : Alike R (v <* v') (w <* w') where
  findings := by
    rw [findings_seqLeft, findings_seqLeft]
    exact h.findings.append h'.findings
  results a b ha hb :=
    h.results a b (seqLeft_eq_valid_iff.1 ha).1 (seqLeft_eq_valid_iff.1 hb).1

/-- The keys that are not known are found in any order. -/
theorem onlyKeys {known : List String} {es es' : Entries}
    (h : ∀ k ∉ known, k ∈ Entries.keys es ↔ k ∈ Entries.keys es') :
    Alike Eq (Validated.onlyKeys known es) (Validated.onlyKeys known es') where
  findings := by
    rw [Schema.findings_onlyKeys, Schema.findings_onlyKeys]
    refine ⟨rfl, fun path => ?_⟩
    simp only [List.mem_map, List.mem_filter, Bool.not_eq_true', List.contains_eq_mem,
      decide_eq_false_iff_not]
    exact exists_congr fun k => and_congr_left' (and_congr_left fun hknown => h k hknown)
  results _ _ _ _ := rfl

end Alike

end Validated

/-! ## Options that say the same -/

namespace Options

/-- What a mapping gives under a key: a known key gives nothing when its value is null. -/
def given? (known : List String) (es : Entries) (k : String) : Option Value :=
  (Entries.find? k es).filter fun v => !(known.contains k && v.isNull)

/-- Values that are the same, up to the order of the keys of a mapping. -/
inductive Reordered : Value → Value → Prop
  | same (v : Value) : Reordered v v
  | keys {es es' : Entries} (h : ∀ k, Entries.find? k es = Entries.find? k es') :
      Reordered (.object es) (.object es')

/-- The known filters. -/
def filterKeys : List String :=
  ["filterGeoBox", "filterGeoPoint"]

/-- Filters that say the same: each of them is given alike, up to the order of its own keys. -/
inductive SameFilters : Value → Value → Prop
  | same (v : Value) : SameFilters v v
  | keys {fs fs' : Entries}
      (h : ∀ k, Option.Rel Reordered (given? filterKeys fs k) (given? filterKeys fs' k)) :
      SameFilters (.object fs) (.object fs')

/-- The options that are kept for callers. -/
def reservedKeys : List String :=
  ["multiple", "searchOptions"]

/-- Options that say the same, up to what is kept for callers. Filters and a random score are mappings
with known keys of their own; all other values count as they are. -/
structure SameOptions (write : Bool) (es es' : Entries) : Prop where
  filters : Option.Rel SameFilters (given? (keys write) es "filters")
    (given? (keys write) es' "filters")
  randomScore : Option.Rel Reordered (given? (keys write) es "random_score")
    (given? (keys write) es' "random_score")
  others : ∀ k ∉ ["filters", "random_score"] ++ reservedKeys,
    given? (keys write) es k = given? (keys write) es' k

theorem Reordered.of_perm {es es' : Entries} (h : es.Perm es') (hn : (Entries.keys es).Nodup) :
    Reordered (.object es) (.object es') :=
  .keys (Entries.find?_of_perm h hn)

section
variable {known : List String} {es es' : Entries}

/-- A key that is not known gives whatever stands under it. -/
theorem given?_unknown {k : String} (hk : k ∉ known) (es : Entries) :
    given? known es k = Entries.find? k es := by
  unfold given?
  cases Entries.find? k es with
  | none => rfl
  | some v => simp [Option.filter, hk]

/-- A known key that gives a value does not give null. -/
theorem given?_known {k : String} (hk : k ∈ known) (es : Entries) :
    given? known es k = (Entries.find? k es).filter fun v => !v.isNull := by
  simp [given?, hk]

/-- A field that may be absent or null is read from what the mapping gives. -/
theorem field_eq {α : Type} {k : String} (hk : k ∈ known) (check : Value → Validated α) :
    Validate.field es k check =
      match given? known es k with
      | none => .valid none
      | some v => some <$> (check v).under k := by
  rw [given?_known hk]
  unfold Validate.field Validated.optional
  cases Entries.find? k es with
  | none => rfl
  | some v =>
    by_cases hnull : v = .null
    · rw [hnull]
      rfl
    · have hisNull : v.isNull = false := by
        cases v <;> first | rfl | exact absurd rfl hnull
      simp only [Option.filter, hisNull, Bool.not_false, if_true,
        Validate.nullable_of_ne_null hnull]
      cases check v <;> rfl

/-- A field is read from what is given. -/
theorem field_congr {α : Type} {k : String} (hk : k ∈ known)
    (h : given? known es k = given? known es' k) (check : Value → Validated α) :
    Validate.field es k check = Validate.field es' k check := by
  rw [field_eq hk, field_eq hk, h]

/-- A field is read alike when its values are. -/
theorem alike_field {α : Type} (check : Value → Validated α) {k : String} (hk : k ∈ known)
    {R : Value → Value → Prop} (h : Option.Rel R (given? known es k) (given? known es' k))
    (hcheck : ∀ {v v'}, R v v' → (check v).Alike Eq (check v')) :
    (Validate.field es k check).Alike Eq (Validate.field es' k check) := by
  rw [field_eq hk, field_eq hk]
  generalize given? known es k = x at h ⊢
  generalize given? known es' k = x' at h ⊢
  cases h with
  | none => exact .refl _
  | some hv => exact .map (fun _ _ hab => congrArg some hab) ((hcheck hv).under k)

end

/-- A field that can be anything is read, whatever it is. -/
theorem alike_any (es es' : Entries) (k : String) :
    (Validate.field es k Validate.any).Alike (fun _ _ => True)
      (Validate.field es' k Validate.any) := by
  have hread : ∀ es, ∃ x, Validate.field es k Validate.any = .valid x := by
    intro es
    rw [field_eq (List.mem_singleton.2 rfl)]
    split
    · exact ⟨none, rfl⟩
    · exact ⟨_, rfl⟩
  obtain ⟨x, hx⟩ := hread es
  obtain ⟨x', hx'⟩ := hread es'
  rw [hx, hx']
  exact ⟨.refl _, fun _ _ _ _ => trivial⟩

/-! ## Records -/

section
variable {es es' : Entries} (h : ∀ k, Entries.find? k es = Entries.find? k es')
include h

theorem required_congr {α : Type} (k : String) (check : Value → Validated α) :
    Validated.required es k check = Validated.required es' k check := by
  unfold Validated.required
  rw [h k]

theorem alike_onlyKeys (known : List String) :
    (Validated.onlyKeys known es).Alike Eq (Validated.onlyKeys known es') := by
  refine .onlyKeys fun k _ => ?_
  rw [Entries.mem_keys_iff, Entries.mem_keys_iff, h]

theorem alike_geoBox : (Validate.geoBox es).Alike Eq (Validate.geoBox es') := by
  simp only [Validate.geoBox, required_congr h]
  exact .seqLeft (.refl _) (alike_onlyKeys h _)

theorem alike_geoPoint : (Validate.geoPoint es).Alike Eq (Validate.geoPoint es') := by
  simp only [Validate.geoPoint, required_congr h]
  exact .seqLeft (.refl _) (alike_onlyKeys h _)

theorem alike_randomScore : (Validate.randomScore es).Alike Eq (Validate.randomScore es') := by
  simp only [Validate.randomScore, required_congr h]
  exact .seqLeft (.refl _) (alike_onlyKeys h _)

end

section
variable {v v' : Value} (h : Reordered v v')
include h

theorem alike_geoBoxValue : (Validate.geoBoxValue v).Alike Eq (Validate.geoBoxValue v') := by
  cases h with
  | same => exact .refl _
  | keys h => exact alike_geoBox h

theorem alike_geoPointValue : (Validate.geoPointValue v).Alike Eq (Validate.geoPointValue v') := by
  cases h with
  | same => exact .refl _
  | keys h => exact alike_geoPoint h

theorem alike_randomScoreValue :
    (Validate.randomScoreValue v).Alike Eq (Validate.randomScoreValue v') := by
  cases h with
  | same => exact .refl _
  | keys h => exact alike_randomScore h

end

theorem alike_geoFilters {fs fs' : Entries}
    (h : ∀ k, Option.Rel Reordered (given? filterKeys fs k) (given? filterKeys fs' k)) :
    (Validate.geoFilters fs).Alike Eq (Validate.geoFilters fs') := by
  have hbox : (Validate.field fs "filterGeoBox" Validate.geoBoxValue).Alike Eq
      (Validate.field fs' "filterGeoBox" Validate.geoBoxValue) :=
    alike_field _ List.mem_cons_self (h "filterGeoBox") alike_geoBoxValue
  have hpoint : (Validate.field fs "filterGeoPoint" Validate.geoPointValue).Alike Eq
      (Validate.field fs' "filterGeoPoint" Validate.geoPointValue) :=
    alike_field _ (List.mem_cons_of_mem _ List.mem_cons_self) (h "filterGeoPoint")
      alike_geoPointValue
  have hkeys : ∀ k ∉ filterKeys, k ∈ Entries.keys fs ↔ k ∈ Entries.keys fs' := by
    intro k hk
    have hgiven := h k
    rw [given?_unknown hk, given?_unknown hk] at hgiven
    have hisSome : ∀ {x x' : Option Value}, Option.Rel Reordered x x' → x.isSome = x'.isSome := by
      rintro _ _ (_ | _) <;> rfl
    rw [Entries.mem_keys_iff, Entries.mem_keys_iff, hisSome hgiven]
  have hmk : (Eq ⇒ Eq ⇒ Eq) (GeoFilters.mk (V := Value)) GeoFilters.mk := by
    rintro _ _ rfl _ _ rfl
    rfl
  exact ((hbox.map hmk).seq hpoint).seqLeft (.onlyKeys hkeys)

theorem alike_geoFiltersValue {v v' : Value} (h : SameFilters v v') :
    (Validate.geoFiltersValue v).Alike Eq (Validate.geoFiltersValue v') := by
  cases h with
  | same => exact .refl _
  | keys h => exact alike_geoFilters h

/-- Options that are the same apart from what is kept for callers. -/
def SameButReserved (o o' : Options Value) : Prop :=
  o' = { o with multiple := o'.multiple, searchOptions := o'.searchOptions }

section
variable {write : Bool} {es es' : Entries} (h : SameOptions write es es')
include h

theorem alike_readWrite : (readWrite write es).Alike Eq (readWrite write es') := by
  cases write with
  | false => exact .refl _
  | true =>
    have hrefresh := field_congr (by decide) (h.others "refresh" (by decide)) Validate.refresh
    refine .of_eq ?_
    simp only [readWrite, if_true, Validate.writeControl]
    exact congrArg _ (congrArg _ hrefresh)

/-- Options are read alike from entries that say the same. -/
theorem alike_ofEntries :
    (ofEntries write es).Alike SameButReserved (ofEntries write es') := by
  have hknown : ∀ k ∈ sharedKeys, k ∈ keys write := by
    intro k hk
    cases write with
    | false => exact hk
    | true => exact List.mem_append_left _ hk
  have hfield : ∀ {α : Type} {k : String} (check : Value → Validated α),
      k ∈ sharedKeys ∧ k ∉ ["filters", "random_score"] ++ reservedKeys →
        (Validate.field es k check).Alike Eq (Validate.field es' k check) :=
    fun check ⟨hk, hother⟩ => .of_eq (field_congr (hknown _ hk) (h.others _ hother) check)
  have hfilters : (Validate.field es "filters" Validate.geoFiltersValue).Alike Eq
      (Validate.field es' "filters" Validate.geoFiltersValue) :=
    alike_field _ (hknown "filters" (by decide)) h.filters alike_geoFiltersValue
  have hscore : (Validate.field es "random_score" Validate.randomScoreValue).Alike Eq
      (Validate.field es' "random_score" Validate.randomScoreValue) :=
    alike_field _ (hknown "random_score" (by decide)) h.randomScore alike_randomScoreValue
  have hkeys : ∀ k ∉ keys write, k ∈ Entries.keys es ↔ k ∈ Entries.keys es' := by
    intro k hk
    have hshared : ∀ k ∈ ["filters", "random_score"] ++ reservedKeys, k ∈ sharedKeys := by decide
    have hgiven := h.others k fun hmem => hk (hknown k (hshared k hmem))
    rw [given?_unknown hk, given?_unknown hk] at hgiven
    rw [Entries.mem_keys_iff, Entries.mem_keys_iff, hgiven]
  -- Options are made of the same parts, apart from the two that are kept for callers.
  have hmk : (Eq ⇒ Eq ⇒ Eq ⇒ Eq ⇒ Eq ⇒ Eq ⇒ Eq ⇒ Eq ⇒ Eq ⇒ (fun _ _ => True) ⇒
      (fun _ _ => True) ⇒ Eq ⇒ SameButReserved) (Options.mk (V := Value)) Options.mk := by
    rintro _ _ rfl _ _ rfl _ _ rfl _ _ rfl _ _ rfl _ _ rfl _ _ rfl _ _ rfl _ _ rfl _ _ - _ _ -
      _ _ rfl
    rfl
  refine .seqLeft (.seq (.seq (.seq (.seq (.seq (.seq (.seq (.seq (.seq (.seq (.seq (.map hmk ?_) ?_)
    ?_) ?_) ?_) ?_) hfilters) ?_) hscore) (alike_any es es' _)) (alike_any es es' _))
    (alike_readWrite h)) (.onlyKeys hkeys)
  all_goals exact hfield _ (by decide)

theorem alike_findings :
    (Schema.findings (Schema.options write) es).Alike
      (Schema.findings (Schema.options write) es') := by
  rw [← Schema.findings_options, ← Schema.findings_options]
  exact (alike_ofEntries h).findings

/-- Entries that say the same are both read, with the same options, or both refused. -/
theorem read_sameOptions :
    (∃ o o', read write (.object es) = .ok o ∧ read write (.object es') = .ok o' ∧
      SameButReserved o o') ∨
    ∃ e e', read write (.object es) = .error e ∧ read write (.object es') = .error e' ∧
      e.SameClass e' ∧
      ((∀ path path', UnknownAt write es path → UnknownAt write es path' → path = path') →
        e' = e) := by
  have hfound := alike_findings h
  cases hread : read write (.object es) with
  | ok o =>
    obtain ⟨hunknown, hwrong⟩ := read_ok_iff.1 ⟨o, hread⟩
    have hread' : ∃ o', read write (.object es') = .ok o' :=
      read_ok_iff.2 ⟨hfound.unknown_eq_nil_iff.1 hunknown, hfound.wrong ▸ hwrong⟩
    obtain ⟨o', hread'⟩ := hread'
    have hvalid : ∀ {es : Entries} {o : Options Value}, read write (.object es) = .ok o →
        ofEntries write es = .valid o :=
      fun h => ofEntries_eq_valid_iff.2 (readEntries_eq_ok_iff.1 h)
    exact .inl ⟨o, o', rfl, hread', (alike_ofEntries h).results o o' (hvalid hread) (hvalid hread')⟩
  | error e =>
    obtain ⟨e', hreported, hclass, hone⟩ := hfound.reported (read_error_iff.1 hread)
    refine .inr ⟨e, e', rfl, read_error_iff.2 hreported, hclass, fun hunique => hone ?_⟩
    intro path hpath path' hpath'
    exact hunique path path' (mem_unknown_iff.1 hpath) (mem_unknown_iff.1 hpath')

/-- **What is left out and how keys are ordered does not matter.** Options that differ in the order of
keys, in known options that are null and in what is kept for callers compile alike: with the same
entries and the same effects, or both with a failure of the same class. The failure is the same unless
several keys are not known. -/
theorem compile_sameOptions (env : Environment) :
    let c := compile env write (.object es)
    let c' := compile env write (.object es')
    c'.effects = c.effects ∧
    (∀ compiled, c'.result = .ok compiled ↔ c.result = .ok compiled) ∧
    (∀ e, c.result = .error e → ∃ e', c'.result = .error e' ∧ e.SameClass e') ∧
    ((∀ path path', UnknownAt write es path → UnknownAt write es path' → path = path') →
      c' = c) := by
  intro c c'
  obtain ⟨o, o', ho, ho', hsame⟩ | ⟨e, e', he, he', hclass, hone⟩ := read_sameOptions h
  · have hcompile : ∀ {es : Entries} {o : Options Value}, read write (.object es) = .ok o →
        compile env write (.object es) = compileTyped env o := by
      intro es o ho
      rw [compile, ho]
      exact pure_bind o (compileTyped env)
    -- What is kept for callers is read, but it is not compiled.
    have htyped : compileTyped env o' = compileTyped env o := by
      rw [hsame]
      rfl
    have heq : c' = c := (hcompile ho').trans (htyped.trans (hcompile ho).symm)
    rw [heq]
    exact ⟨rfl, fun _ => Iff.rfl, fun e he => ⟨e, he, .inl rfl⟩, fun _ => rfl⟩
  · have hc : c = .fail e := by
      simp only [c, compile, he]
      rfl
    have hc' : c' = .fail e' := by
      simp only [c', compile, he']
      rfl
    rw [hc, hc']
    refine ⟨rfl, fun _ => iff_of_false (nomatch ·) (nomatch ·), ?_, fun hunique => ?_⟩
    · rintro _ ⟨⟩
      exact ⟨e', rfl, hclass⟩
    · rw [hone hunique]

end

/-- A limit, a point and a random score, each in another place, with a null in each mapping and
something else kept for callers. -/
theorem compile_sameOptions_point :
    let point : Entries :=
      [("field", .str "place"), ("distance", .str "2km"), ("geoPoint", .list [.int 1, .int 2])]
    let score : Entries := [("column", .str "id"), ("seed", .int 7)]
    let es : Entries :=
      [("limit", .int 5), ("skip", .null), ("random_score", .object score), ("multiple", .bool true),
        ("filters", .object [("filterGeoBox", .null), ("filterGeoPoint", .object point)])]
    let es' : Entries :=
      [("filters", .object [("filterGeoPoint", .object point.reverse)]), ("refresh", .null),
        ("searchOptions", .str "any"), ("random_score", .object score.reverse), ("limit", .int 5)]
    SameOptions true es es' ∧ (∀ path, ¬UnknownAt true es path) ∧
      compile {} true (.object es') = compile {} true (.object es) := by
  intro point score es es'
  have hpoint : Reordered (.object point) (.object point.reverse) :=
    .of_perm (List.reverse_perm point).symm (by decide)
  have hscore : Reordered (.object score) (.object score.reverse) :=
    .of_perm (List.reverse_perm score).symm (by decide)
  have hnone : ∀ {among known : List String} {es : Entries} {k : String},
      (∀ k ∈ Entries.keys es, k ∈ among) → k ∉ among → given? known es k = none := by
    intro among known es k hes hk
    rw [given?, Entries.find?_eq_none_iff.2 fun hmem => hk (hes k hmem)]
    rfl
  have hsame : SameOptions true es es' := {
    filters := by
      refine .some (.keys fun k => ?_)
      by_cases hknown : k ∈ filterKeys
      · obtain rfl | rfl : k = "filterGeoBox" ∨ k = "filterGeoPoint" := by
          simpa [filterKeys] using hknown
        · exact .none
        · exact .some hpoint
      · rw [hnone (by decide) hknown, hnone (by decide) hknown]
        exact .none
    randomScore := .some hscore
    others := by
      intro k hk
      by_cases hshown : k ∈ ["limit", "skip", "refresh"]
      · obtain rfl | rfl | rfl : k = "limit" ∨ k = "skip" ∨ k = "refresh" := by simpa using hshown
        all_goals rfl
      · have hother := List.not_mem_append hshown hk
        rw [hnone (by decide) hother, hnone (by decide) hother] }
  have hknown : ∀ path, ¬UnknownAt true es path := by
    intro path hpath
    have hmem := mem_unknown_iff.2 hpath
    have hnone : (Schema.findings (Schema.options true) es).unknown = [] := by decide
    rw [hnone] at hmem
    cases hmem
  have hcompile := (compile_sameOptions hsame {}).2.2.2
  exact ⟨hsame, hknown, hcompile fun path _ hpath => absurd hpath (hknown path)⟩

end Options

end SearchRequest
