import Mathlib.Logic.Basic
import SearchRequest.Mapping.Keyword
import SearchRequest.Proofs.Failures
import SearchRequest.Proofs.Flattened
/-
How a resolver is built from an index mapping document, and how that fails. The document is searched
for its properties level by level: a mapping leads to what stands under `mappings`, under the name of
the index, or to the only mapping in it (`LeadsTo`), and `Searches` is what the search comes to. A
mapping has properties, leads on, or fails with a report (`stepInMapping_cases`); anything else ends
the search (`step_elsewhere`). So the failure of the whole has a report unless the search comes to
something that cannot be searched, or the properties that it finds are no tree
(`ofDocument_reported_iff`).

What stands in a document is looked into without a check, so a number in the place of properties, of
mappings, of multi-fields or of an index fails without a report (`mapping_unreported`).
-/
namespace SearchRequest

namespace Mapping

/-! ## The search -/

/-- A mapping leads the search to a part of it, in which the index is looked for under its name or
not any more. -/
inductive LeadsTo (index : Value) (rows : Rows) : Value → Value → Prop
  | mappings {part : Value} (hproperties : rows.under? "properties" = none)
      (h : Rows.under? "mappings" rows = some part) : LeadsTo index rows index part
  | named {part : Value} (hproperties : Rows.under? "properties" rows = none)
      (hmappings : Rows.under? "mappings" rows = none) (hindex : index.isNull = false)
      (h : Rows.lookup? index rows = some part) : LeadsTo index rows .null part
  | only {key part : Value} (hproperties : Rows.under? "properties" rows = none)
      (hmappings : Rows.under? "mappings" rows = none)
      (hindex : index.isNull = true ∨ Rows.lookup? index rows = none)
      (hrows : rows = [(key, part)]) (hpart : part.isMapping = true) :
      LeadsTo index rows .null part

/-- The search for the properties of a document comes to a part of it, with the name under which the
index is still looked for. -/
inductive Searches (document index : Value) : Value → Value → Prop
  | start (h : document.isMapping = true) : Searches document index index document
  | next {index' index'' v part : Value} {rows : Rows} (h : Searches document index index' v)
      (hrows : v.mapping? = some rows) (hpart : LeadsTo index' rows index'' part) :
      Searches document index index'' part

/-- The search comes to a mapping with these properties. -/
def Finds (document index properties : Value) : Prop :=
  ∃ index' v rows, Searches document index index' v ∧ v.mapping? = some rows ∧
    Rows.under? "properties" rows = some properties

/-- The mappings that the search comes to have texts for keys. -/
def TextKeyed (document index : Value) : Prop :=
  ∀ index' v rows, Searches document index index' v → v.mapping? = some rows →
    ∀ r ∈ rows, ∃ s, r.1 = .str s

/-- What an index is given as: its name, or nothing. -/
def IsIndex (index : Value) : Prop :=
  index = .null ∨ ∃ name, index = .str name

/-- The items of a text or of a collection. -/
def items? : Value → Option (List Value)
  | .str s => some (s.toList.map fun c => .str (String.singleton c))
  | .list items | .tuple items | .set items | .frozenset items => some items
  | _ => none

/-- Whether a name occurs in a text, or is an item of a collection. -/
def holds (name : String) : Value → Bool
  | .str s => Text.occursIn name.toList s.toList
  | .list items | .tuple items | .set items | .frozenset items => isAmong (.str name) items
  | _ => false

/-- Whether a text or a collection holds one of the names that the search asks for. -/
def holdsName (index v : Value) : Bool :=
  holds "properties" v || holds "mappings" v ||
    match index with
    | .str name => holds name v
    | _ => false

/-- A text or a collection that is searched in vain: it holds none of the names, there is not just
one item in it, and its items can be put in order for the report. -/
def SearchedInVain (index v : Value) : Prop :=
  holdsName index v = false ∧
    ∃ items, items? v = some items ∧ items.length ≠ 1 ∧ (Value.sort? items).isSome = true

/-! ## One level -/

section
variable {index index' v part : Value} {rows : Rows}

theorem IsIndex.isKey (h : IsIndex index) : index.isKey = true := by
  rcases h with rfl | ⟨name, rfl⟩ <;> rfl

theorem locate_found {properties : Value} (h : step index v = .ok (.found properties)) :
    locate index v = .ok properties := by
  rw [locate]
  split <;> simp_all

theorem locate_into (h : step index v = .ok (.into index' part)) :
    locate index v = locate index' part := by
  rw [locate]
  split <;> simp_all

theorem locate_error {e : Error} (h : step index v = .error e) : locate index v = .error e := by
  rw [locate]
  split <;> simp_all

theorem step_mapping (h : v.mapping? = some rows) : step index v = stepInMapping index rows := by
  rw [step, h]

theorem step_properties (hrows : v.mapping? = some rows) {properties : Value}
    (h : Rows.under? "properties" rows = some properties) :
    step index v = .ok (.found properties) := by
  rw [step_mapping hrows, stepInMapping, h]

/-- The name of the index is found, or it is not looked for or not there. -/
theorem named?_cases (h : IsIndex index) (rows : Rows) :
    (∃ part, named? index rows = .ok (some part) ∧ index.isNull = false ∧
      Rows.lookup? index rows = some part) ∨
    named? index rows = .ok none ∧ (index.isNull = true ∨ Rows.lookup? index rows = none) := by
  cases hnull : index.isNull with
  | true => exact .inr ⟨by simp [named?, hnull], .inl rfl⟩
  | false =>
    have hnamed : named? index rows = .ok (Rows.lookup? index rows) := by
      simp [named?, hnull, h.isKey]
    cases hlookup : Rows.lookup? index rows with
    | none => exact .inr ⟨by rw [hnamed, hlookup], .inr rfl⟩
    | some part => exact .inl ⟨part, by rw [hnamed, hlookup], rfl, rfl⟩

theorem not_reportedAs_misuse (m : Misuse) (kinds : List ErrorKind) :
    ¬ (Error.misuse m).ReportedAs kinds := by
  rintro ⟨r, hr, -⟩
  cases hr

/-- Where nothing is found, the failure has a report when the items can be put in order. -/
theorem noProperties_reported_iff (index : Value) (items : List Value) :
    (noProperties index items).ReportedAs [.invalidConfig] ↔
      (Value.sort? items).isSome = true := by
  unfold noProperties
  cases Value.sort? items with
  | some keys => exact ⟨fun _ => rfl, fun _ => .of .invalidConfig (by decide) rfl⟩
  | none => exact ⟨fun h => absurd h (not_reportedAs_misuse _ _), fun h => by cases h⟩

theorem noEntries_reported_iff (index : Value) (items : List Value) :
    (noEntries index items).ReportedAs [.invalidConfig] ↔
      items.length ≠ 1 ∧ (Value.sort? items).isSome = true := by
  unfold noEntries
  split
  · rename_i hone
    exact ⟨fun h => absurd h (not_reportedAs_misuse _ _), fun h => absurd hone h.1⟩
  · rename_i hone
    rw [noProperties_reported_iff]
    exact ⟨fun h => ⟨hone, h⟩, fun h => h.2⟩

/-- A mapping without properties leads on, or it fails with a report. -/
theorem stepInMapping_cases (hindex : IsIndex index) (htexts : ∀ r ∈ rows, ∃ s, r.1 = .str s)
    (hproperties : Rows.under? "properties" rows = none) :
    (∃ index' part, stepInMapping index rows = .ok (.into index' part) ∧
      LeadsTo index rows index' part) ∨
    ∃ e, stepInMapping index rows = .error e ∧ e.ReportedAs [.invalidConfig] := by
  rw [stepInMapping, hproperties]
  cases hmappings : Rows.under? "mappings" rows with
  | some part => exact .inl ⟨index, part, rfl, .mappings hproperties hmappings⟩
  | none =>
    dsimp only
    rcases named?_cases hindex rows with ⟨part, hnamed, hnull, hpart⟩ | ⟨hnamed, hnone⟩
    · rw [hnamed]
      exact .inl ⟨.null, part, rfl, .named hproperties hmappings hnull hpart⟩
    · rw [hnamed]
      dsimp only
      cases honly : onlyMapping? rows with
      | some part =>
        obtain ⟨key, hrows, hmapping⟩ := eq_of_onlyMapping? honly
        exact .inl ⟨.null, part, rfl, .only hproperties hmappings hnone hrows hmapping⟩
      | none =>
        have hkeys : ∀ v ∈ rows.map (·.1), ∃ s, v = .str s := by
          intro v hv
          obtain ⟨r, hr, rfl⟩ := List.mem_map.1 hv
          exact htexts r hr
        have hsorted := Option.isSome_iff_exists.2 (Value.exists_sort? hkeys)
        exact .inr ⟨_, rfl, (noProperties_reported_iff _ _).2 hsorted⟩

/-- Where a mapping leads, the search goes. -/
theorem LeadsTo.stepInMapping_eq (hpart : LeadsTo index rows index' part) (h : IsIndex index) :
    stepInMapping index rows = .ok (.into index' part) := by
  cases hpart with
  | mappings hproperties hmappings => simp [stepInMapping, hproperties, hmappings]
  | named hproperties hmappings hindex hpart =>
    simp [stepInMapping, hproperties, hmappings, named?, hindex, h.isKey, hpart]
  | only hproperties hmappings hindex hrows hmapping =>
    have hnamed : named? index rows = .ok none := by
      rcases named?_cases h rows with ⟨part', -, hnull, hsome⟩ | ⟨hnamed, -⟩
      · simp [hnull, hsome] at hindex
      · exact hnamed
    have honly : onlyMapping? rows = some part := by simp [hrows, onlyMapping?, hmapping]
    simp [stepInMapping, hproperties, hmappings, hnamed, honly]

/-- A mapping leads to one part only. -/
theorem LeadsTo.unique {index₁ index₂ part₁ part₂ : Value} (h₁ : LeadsTo index rows index₁ part₁)
    (h₂ : LeadsTo index rows index₂ part₂) (h : IsIndex index) :
    index₂ = index₁ ∧ part₂ = part₁ := by
  have hstep := (h₂.stepInMapping_eq h).symm.trans (h₁.stepInMapping_eq h)
  cases hstep
  exact ⟨rfl, rfl⟩

theorem LeadsTo.properties_eq_none (h : LeadsTo index rows index' part) :
    Rows.under? "properties" rows = none := by
  cases h with
  | mappings h | named h | only h => exact h

theorem locate_leads (hrows : v.mapping? = some rows) (hpart : LeadsTo index rows index' part)
    (h : IsIndex index) : locate index v = locate index' part := by
  apply locate_into
  rw [step_mapping hrows]
  exact hpart.stepInMapping_eq h

/-- An index name is no position, so no item of a list is taken by it. -/
theorem itemAt_of_isIndex (hindex : IsIndex index) (items : List Value) :
    itemAt index items =
      .error (if holdsName index (.list items) = true then .misuse .kind
        else noEntries index items) := by
  rcases hindex with rfl | ⟨name, rfl⟩
  · cases hword : holdsWord items <;>
      simp_all [itemAt, holdsWord, holdsName, holds, Value.isNull]
  · cases hword : holdsWord items <;> cases hname : isAmong (.str name) items <;>
      simp_all [itemAt, holdsWord, holdsName, holds, Value.isNull, position]

theorem noMapping_text (hindex : IsIndex index) (s : String) :
    noMapping index (.str s) =
      if holdsName index (.str s) = true then .misuse .kind
      else noEntries index (s.toList.map fun c => .str (String.singleton c)) := by
  unfold holdsName
  rcases hindex with rfl | ⟨name, rfl⟩
  · rw [Bool.or_false]
    rfl
  · simp only [Bool.or_eq_true, ite_or, noMapping, holds]

theorem noMapping_set (hindex : IsIndex index) {items : List Value}
    (hv : v = .set items ∨ v = .frozenset items) :
    noMapping index v =
      if holdsName index v = true then .misuse .kind else noEntries index items := by
  unfold holdsName
  rcases hindex with rfl | ⟨name, rfl⟩
  · rw [Bool.or_false]
    rcases hv with rfl | rfl <;> rfl
  · have hkey : (!(Value.str name).isKey) = false := rfl
    rcases hv with rfl | rfl <;>
      simp only [Bool.or_eq_true, ite_or, noMapping, holdsWord, holds, hkey, Bool.or_false]

/-- A text or a collection has no entries to take out, even when it holds a name. -/
theorem step_items (hindex : IsIndex index) {items : List Value} (h : items? v = some items) :
    step index v =
      .error (if holdsName index v = true then .misuse .kind else noEntries index items) := by
  have hmapping : v.mapping? = none := by cases v <;> first | rfl | cases h
  rw [step, hmapping]
  cases v <;> cases h
  case str s => exact congrArg Except.error (noMapping_text hindex s)
  case set => exact congrArg Except.error (noMapping_set hindex (.inl rfl))
  case frozenset => exact congrArg Except.error (noMapping_set hindex (.inr rfl))
  case list | tuple =>
    dsimp only [stepElsewhere]
    rw [itemAt_of_isIndex hindex]
    rfl

/-- What is neither a mapping nor a text or a collection cannot be searched. -/
theorem step_other (hmapping : v.mapping? = none) (hitems : items? v = none) :
    step index v = .error (.misuse .kind) := by
  rw [step, hmapping]
  cases v <;> first | rfl | cases hitems

/-- What is no mapping ends the search, with a report exactly when it is searched in vain. -/
theorem step_elsewhere (hindex : IsIndex index) (hmapping : v.mapping? = none) :
    ∃ e, step index v = .error e ∧ (e.ReportedAs [.invalidConfig] ↔ SearchedInVain index v) := by
  cases hitems : items? v with
  | none =>
    refine ⟨_, step_other hmapping hitems, fun h => absurd h (not_reportedAs_misuse _ _), ?_⟩
    rintro ⟨-, items, h, -⟩
    rw [hitems] at h
    cases h
  | some items =>
    refine ⟨_, step_items hindex hitems, ?_⟩
    cases hheld : holdsName index v with
    | true =>
      refine ⟨fun h => absurd h (not_reportedAs_misuse _ _), fun h => ?_⟩
      rw [SearchedInVain, hheld] at h
      cases h.1
    | false =>
      simp [SearchedInVain, hheld, hitems, noEntries_reported_iff]

end

/-! ## The whole search -/

section
variable {document index : Value}

/-- The index stays what an index is given as. -/
theorem Searches.isIndex {index' v : Value} (h : Searches document index index' v)
    (hindex : IsIndex index) : IsIndex index' := by
  induction h with
  | start => exact hindex
  | next _ _ hpart ih =>
    cases hpart with
    | mappings => exact ih
    | named | only => exact .inl rfl

theorem Searches.isMapping {index' v : Value} (h : Searches document index index' v) :
    document.isMapping = true := by
  induction h with
  | start h => exact h
  | next _ _ _ ih => exact ih

/-- Searching a document is searching any part that the search comes to. -/
theorem Searches.locate_eq {index' v : Value} (h : Searches document index index' v)
    (hindex : IsIndex index) : locate index document = locate index' v := by
  induction h with
  | start => rfl
  | next h hrows hpart ih => exact ih.trans (locate_leads hrows hpart (h.isIndex hindex))

/-- The search comes to the properties that are the result. -/
theorem locate_eq_of_finds (hindex : IsIndex index) {properties : Value}
    (h : Finds document index properties) : locate index document = .ok properties := by
  obtain ⟨index', v, rows, hv, hrows, hproperties⟩ := h
  rw [hv.locate_eq hindex]
  exact locate_found (step_properties hrows hproperties)

/-- From a part on, the search finds properties of the document or fails with a report, when all
that it comes to is a mapping or is searched in vain. -/
theorem meets_locate (hindex : IsIndex index) (hkeys : TextKeyed document index)
    (hparts : ∀ index' v, Searches document index index' v →
      v.isMapping = true ∨ SearchedInVain index' v)
    {index' v : Value} (hv : Searches document index index' v) :
    Meets [.invalidConfig] (Finds document index) (locate index' v) := by
  have hindex' := hv.isIndex hindex
  cases hrows : v.mapping? with
  | none =>
    have hvain : SearchedInVain index' v := by
      refine (hparts _ _ hv).resolve_left ?_
      rw [isMapping_iff, hrows]
      simp
    obtain ⟨e, hstep, hreported⟩ := step_elsewhere hindex' hrows
    rw [locate_error hstep]
    exact hreported.2 hvain
  | some rows =>
    cases hproperties : Rows.under? "properties" rows with
    | some properties =>
      rw [locate_found (step_properties hrows hproperties)]
      exact ⟨index', v, rows, hv, hrows, hproperties⟩
    | none =>
      rcases stepInMapping_cases hindex' (hkeys _ _ _ hv hrows) hproperties with
        ⟨index'', part, hstep, hleads⟩ | ⟨e, hstep, he⟩
      · rw [← step_mapping hrows] at hstep
        have hlt := sizeOf_lt_of_step hstep
        rw [locate_into hstep]
        exact meets_locate hindex hkeys hparts (.next hv hrows hleads)
      · rw [← step_mapping hrows] at hstep
        rw [locate_error hstep]
        exact he
termination_by sizeOf v

theorem fieldTypes_found {properties : Value} (h : document.isMapping = true)
    (hlocate : locate index document = .ok properties) :
    fieldTypes document index = (flatten "" properties).mapError .misuse := by
  rw [fieldTypes, if_pos h, hlocate]

/-- A failure to search passes through. -/
theorem fieldTypes_error {e : Error} (h : document.isMapping = true)
    (hlocate : locate index document = .error e) : fieldTypes document index = .error e := by
  rw [fieldTypes, if_pos h, hlocate]

/-- The field types of a document are given, or their failure has a report, exactly when all that
the search comes to is a mapping or is searched in vain, and the properties found are a tree. -/
theorem meets_fieldTypes_iff (hindex : IsIndex index) (hkeys : TextKeyed document index) :
    Meets [.invalidConfig] (fun _ => True) (fieldTypes document index) ↔
      (∀ index' v, Searches document index index' v →
        v.isMapping = true ∨ SearchedInVain index' v) ∧
      ∀ properties, Finds document index properties → IsProperties properties := by
  constructor
  · intro hmeets
    constructor
    · intro index' v hv
      cases hrows : v.mapping? with
      | some rows => exact .inl (isMapping_iff.2 ⟨rows, hrows⟩)
      | none =>
        obtain ⟨e, hstep, hreported⟩ := step_elsewhere (hv.isIndex hindex) hrows
        have hlocate := (hv.locate_eq hindex).trans (locate_error hstep)
        exact .inr (hreported.1 (hmeets.reported (fieldTypes_error hv.isMapping hlocate)))
    · intro properties hp
      have hmapping : document.isMapping = true := by
        obtain ⟨_, _, _, hv, -, -⟩ := hp
        exact hv.isMapping
      rw [fieldTypes_found hmapping (locate_eq_of_finds hindex hp)] at hmeets
      cases hflat : flatten "" properties with
      | ok types => exact isProperties_of_flatten hflat
      | error e =>
        rw [hflat] at hmeets
        exact absurd hmeets (not_reportedAs_misuse _ _)
  · rintro ⟨hparts, htrees⟩
    by_cases hmapping : document.isMapping = true
    · have hlocate := meets_locate hindex hkeys hparts (.start hmapping)
      cases hresult : locate index document with
      | error e =>
        rw [fieldTypes_error hmapping hresult]
        exact hlocate.reported hresult
      | ok properties =>
        rw [hresult] at hlocate
        obtain ⟨types, htypes⟩ := (flatten_isOk_iff "" properties).2 (htrees properties hlocate)
        rw [fieldTypes_found hmapping hresult, htypes]
        trivial
    · rw [fieldTypes, if_neg hmapping]
      exact .of .invalidConfig (by decide) rfl

end

end Mapping

namespace KeywordResolver

open Mapping

/-- **Index mappings fail with a report.** Building a resolver from a document with texts for keys
either succeeds or is reported as a wrong configuration, exactly when all that the search for
properties comes to is a mapping, or a text or a collection that it searches in vain, and the
properties that it finds are a tree. What is no mapping at all is reported. -/
theorem ofDocument_reported_iff {document index : Value} (hindex : IsIndex index)
    (hkeys : TextKeyed document index) (suffix : String) :
    Meets [.invalidConfig] (fun _ => True) (ofDocument document index suffix) ↔
      (∀ index' v, Searches document index index' v →
        v.isMapping = true ∨ SearchedInVain index' v) ∧
      ∀ properties, Finds document index properties → IsProperties properties := by
  rw [← meets_fieldTypes_iff hindex hkeys]
  unfold ofDocument
  cases fieldTypes document index <;> exact Iff.rfl

/-- Under the name of the index, beside an entry that the search does not come to. -/
theorem ofDocument_reported_books :
    let inner : Value := .object [("properties", .object [("a", .object [("type", .str "keyword")])])]
    let books : Value := .object [("mappings", inner)]
    let document : Value := .object [("books", books), ("films", .int 5)]
    IsIndex (.str "books") ∧ TextKeyed document (.str "books") ∧
      Meets [.invalidConfig] (fun _ => True) (ofDocument document (.str "books") "keyword") := by
  intro inner books document
  have hbooks : Rows.lookup? (.str "books") (Rows.ofEntries [("books", books), ("films", .int 5)]) =
      some books := by
    simp [Rows.lookup?, Rows.ofEntries]
  have hindex : IsIndex (.str "books") := .inr ⟨_, rfl⟩
  have hparts : ∀ index v, Searches document (.str "books") index v →
      (index = .str "books" ∧ v = document) ∨ (index = .null ∧ (v = books ∨ v = inner)) := by
    intro index v h
    induction h with
    | start => exact .inl ⟨rfl, rfl⟩
    | next _ hrows hpart ih =>
      rcases ih with ⟨rfl, rfl⟩ | ⟨rfl, rfl | rfl⟩ <;> cases hrows
      · obtain ⟨rfl, rfl⟩ := LeadsTo.unique (.named rfl rfl rfl hbooks) hpart hindex
        exact .inr ⟨rfl, .inl rfl⟩
      · obtain ⟨rfl, rfl⟩ := LeadsTo.unique (.mappings rfl rfl) hpart (.inl rfl)
        exact .inr ⟨rfl, .inr rfl⟩
      · cases hpart.properties_eq_none
  have hkeys : TextKeyed document (.str "books") := by
    intro index v rows h hrows
    rcases hparts index v h with ⟨rfl, rfl⟩ | ⟨rfl, rfl | rfl⟩ <;> cases hrows <;>
      simp [Rows.ofEntries]
  refine ⟨hindex, hkeys, (ofDocument_reported_iff hindex hkeys "keyword").2 ⟨?_, ?_⟩⟩
  · intro index v h
    rcases hparts index v h with ⟨-, rfl⟩ | ⟨-, rfl | rfl⟩ <;> exact .inl rfl
  · rintro properties ⟨index, v, rows, hv, hrows, hproperties⟩
    rcases hparts index v hv with ⟨rfl, rfl⟩ | ⟨rfl, rfl | rfl⟩ <;> cases hrows
    · cases hproperties
    · cases hproperties
    · cases hproperties
      have hflat : ∃ types, flatten "" (.object [("a", .object [("type", .str "keyword")])]) =
          .ok types := by
        simp [flatten, flattenFields, flattenBelow, multiFields, Value.mapping?, Rows.ofEntries,
          Rows.under?]
      exact (flatten_isOk_iff "" _).1 hflat

/-- A number in the place of properties, of mappings, of an index or of multi-fields fails without a
report. -/
theorem mapping_unreported :
    (¬ ∀ document index suffix,
      Meets [.invalidConfig] (fun _ => True) (ofDocument document index suffix)) ∧
    ofDocument (.object [("properties", .int 5)]) .null "keyword" = .error (.misuse .part) ∧
    ofDocument (.object [("mappings", .int 5)]) .null "keyword" = .error (.misuse .kind) ∧
    ofDocument (.object [("books", .int 5), ("films", .int 5)]) (.str "books") "keyword" =
      .error (.misuse .kind) ∧
    ofDocument (.object [("properties", .object [("a", .object [("fields", .int 5)])])]) .null
      "keyword" = .error (.misuse .part) := by
  have hproperties : ofDocument (.object [("properties", .int 5)]) .null "keyword" =
      .error (.misuse .part) := by
    have hlocate : locate .null (.object [("properties", .int 5)]) = .ok (.int 5) :=
      locate_found (step_properties rfl rfl)
    rw [ofDocument, fieldTypes_found rfl hlocate, flatten_other "" rfl]
    rfl
  have hmappings : ofDocument (.object [("mappings", .int 5)]) .null "keyword" =
      .error (.misuse .kind) := by
    have hleads : locate .null (.object [("mappings", .int 5)]) = locate .null (.int 5) :=
      locate_leads rfl (.mappings rfl rfl) (.inl rfl)
    rw [ofDocument, fieldTypes_error rfl (hleads.trans (locate_error rfl))]
    rfl
  have hindex : ofDocument (.object [("books", .int 5), ("films", .int 5)]) (.str "books")
      "keyword" = .error (.misuse .kind) := by
    have hbooks : Rows.lookup? (.str "books")
        (Rows.ofEntries [("books", .int 5), ("films", .int 5)]) = some (.int 5) := by
      simp [Rows.lookup?, Rows.ofEntries]
    have hleads : locate (.str "books") (.object [("books", .int 5), ("films", .int 5)]) =
        locate .null (.int 5) :=
      locate_leads rfl (.named rfl rfl rfl hbooks) (.inr ⟨_, rfl⟩)
    rw [ofDocument, fieldTypes_error rfl (hleads.trans (locate_error rfl))]
    rfl
  have hfields : ofDocument (.object [("properties", .object [("a", .object [("fields", .int 5)])])])
      .null "keyword" = .error (.misuse .part) := by
    have hlocate : locate .null
        (.object [("properties", .object [("a", .object [("fields", .int 5)])])]) =
          .ok (.object [("a", .object [("fields", .int 5)])]) :=
      locate_found (step_properties rfl rfl)
    have hflat : flatten "" (.object [("a", .object [("fields", .int 5)])]) = .error .part := by
      simp [flatten, flattenFields, multiFields, Value.mapping?, Value.truthy, Rows.ofEntries,
        Rows.under?]
    rw [ofDocument, fieldTypes_found rfl hlocate, hflat]
    rfl
  refine ⟨?_, hproperties, hmappings, hindex, hfields⟩
  intro h
  exact not_reportedAs_misuse _ _ ((h _ _ _).reported hproperties)

end KeywordResolver

end SearchRequest
