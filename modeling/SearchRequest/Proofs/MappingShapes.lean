import SearchRequest.Proofs.MappingSearch
import SearchRequest.Proofs.Rows
import SearchRequest.Query
/-
The shapes in which an index mapping is handed in: properties alone, under `mappings`, under the only
type in `mappings`, or under `mappings` of an index among others. The search tells them apart by the
words `properties` and `mappings`, and asks for names only where neither word is a key. So all shapes
describe one resolver as long as no name takes the place of a word (`Shape.Clear`), and a shape in
which one does is read as another document (`KeywordResolver.shapes_agree`).

Nothing else can be done about a type called `properties`: its document is also the one of a field
with that name.
-/
namespace SearchRequest

namespace Mapping

/-! ## Shapes -/

/-- A way to write properties as an index mapping document. -/
inductive Shape
  | bare
  | mappings
  /-- The only type of an index. -/
  | ofType (type : String)
  /-- An index among others, each under a name of its own. -/
  | ofIndex (before : Entries) (name : String) (after : Entries)
      (hname : name ∉ Entries.keys (before ++ after))

namespace Shape

/-- The document of properties in a shape. -/
def document (properties : Value) : Shape → Value
  | bare => .entry "properties" properties
  | mappings => .entry "mappings" (.entry "properties" properties)
  | ofType type => .entry "mappings" (.entry type (.entry "properties" properties))
  | ofIndex before name after _ =>
    .object (before ++ (name, .entry "mappings" (.entry "properties" properties)) :: after)

/-- The index that a shape is searched for. It is given when there are others, and else it may be. -/
def AskedFor (index : Value) : Shape → Prop
  | ofIndex _ name _ _ => index = .str name
  | _ => IsIndex index

/-- No name in a shape is a word that the search goes by before it comes to the name. -/
def Clear : Shape → Prop
  | bare | mappings => True
  | ofType type => type ≠ "properties"
  | ofIndex before name after _ =>
    name ≠ "properties" ∧ "properties" ∉ Entries.keys (before ++ after) ∧
      "mappings" ∉ Entries.keys (before ++ after)

end Shape

/-! ## The search through a shape -/

section
variable {index : Value} {es : Entries} {v : Value}

theorem locate_of_properties (h : Entries.find? "properties" es = some v) :
    locate index (.object es) = .ok v :=
  locate_found (step_properties rfl ((Rows.under?_ofEntries _ es).trans h))

/-- Where there are no properties, the search goes on in the mappings. -/
theorem locate_of_mappings (hindex : IsIndex index)
    (hproperties : "properties" ∉ Entries.keys es) (h : Entries.find? "mappings" es = some v) :
    locate index (.object es) = locate index v := by
  have hnone := (Rows.under?_ofEntries _ es).trans (Entries.find?_eq_none_iff.2 hproperties)
  exact locate_leads rfl (.mappings hnone ((Rows.under?_ofEntries _ es).trans h)) hindex

/-- Where neither word is a key, the search goes on under the name of the index. -/
theorem locate_of_name {name : String} (hproperties : "properties" ∉ Entries.keys es)
    (hmappings : "mappings" ∉ Entries.keys es) (h : Entries.find? name es = some v) :
    locate (.str name) (.object es) = locate .null v := by
  have hnone : ∀ {k}, k ∉ Entries.keys es → Rows.under? k (Rows.ofEntries es) = none :=
    fun hk => (Rows.under?_ofEntries _ es).trans (Entries.find?_eq_none_iff.2 hk)
  have hlookup : Rows.lookup? (.str name) (Rows.ofEntries es) = some v := by
    rw [Rows.lookup?_str, Rows.under?_ofEntries, h]
  exact locate_leads rfl (.named (hnone hproperties) (hnone hmappings) rfl hlookup) (.inr ⟨_, rfl⟩)

end

section
variable {index : Value} (properties : Value)

theorem locate_bare : locate index (Shape.bare.document properties) = .ok properties :=
  locate_of_properties rfl

theorem locate_mappings (hindex : IsIndex index) :
    locate index (Shape.mappings.document properties) = .ok properties :=
  (locate_of_mappings hindex (by simp [Entries.keys]) rfl).trans (locate_bare properties)

/-- The only entry of a mapping is searched, whatever its name and the index are, unless the name is
the word for properties. -/
theorem locate_entry {name : String} (hindex : IsIndex index) (hname : name ≠ "properties") :
    locate index (.entry name (Shape.bare.document properties)) = .ok properties := by
  let es : Entries := [(name, Shape.bare.document properties)]
  have hproperties : "properties" ∉ Entries.keys es := by simpa [es, Entries.keys] using hname.symm
  by_cases hmappings : name = "mappings"
  · have hfind : Entries.find? "mappings" es = some (Shape.bare.document properties) := by
      simp [es, Entries.find?, hmappings]
    exact (locate_of_mappings hindex hproperties hfind).trans (locate_bare properties)
  have hnone : "mappings" ∉ Entries.keys es := by
    simpa [es, Entries.keys] using Ne.symm hmappings
  by_cases hasked : index = .str name
  · have hfind : Entries.find? name es = some (Shape.bare.document properties) := by
      simp [es, Entries.find?]
    rw [hasked]
    exact (locate_of_name hproperties hnone hfind).trans (locate_bare properties)
  · have hother : index.isNull = true ∨ Rows.lookup? index (Rows.ofEntries es) = none := by
      rcases hindex with rfl | ⟨other, rfl⟩
      · exact .inl rfl
      · have hne : name ≠ other := fun heq => hasked (congrArg Value.str heq.symm)
        right
        rw [Rows.lookup?_str, Rows.under?_ofEntries]
        simp [es, Entries.find?, hne]
    have hunder : ∀ {k}, k ∉ Entries.keys es → Rows.under? k (Rows.ofEntries es) = none :=
      fun hk => (Rows.under?_ofEntries _ es).trans (Entries.find?_eq_none_iff.2 hk)
    exact (locate_leads rfl (.only (hunder hproperties) (hunder hnone) hother rfl rfl) hindex).trans
      (locate_bare properties)

end

/-- The key of an index, and those of the others. -/
theorem Shape.mem_keys_ofIndex {before after : Entries} {name key : String} {v : Value} :
    key ∈ Entries.keys (before ++ (name, v) :: after) ↔
      key = name ∨ key ∈ Entries.keys (before ++ after) := by
  simp only [Entries.keys, List.map_append, List.map_cons, List.mem_append, List.mem_cons]
  exact or_left_comm

theorem Shape.notMem_before {before after : Entries} {name : String}
    (h : name ∉ Entries.keys (before ++ after)) : name ∉ Entries.keys before := by
  rw [Entries.keys_append] at h
  exact fun hmem => h (List.mem_append_left _ hmem)

/-- The search comes to the properties of a shape in which no name is a word. -/
theorem locate_document {s : Shape} {index : Value} (hindex : s.AskedFor index) (hclear : s.Clear)
    (properties : Value) : locate index (s.document properties) = .ok properties := by
  cases s with
  | bare => exact locate_bare properties
  | mappings => exact locate_mappings properties hindex
  | ofType type =>
    let es : Entries := [("mappings", .entry type (Shape.bare.document properties))]
    have hmappings : locate index (.object es) =
        locate index (.entry type (Shape.bare.document properties)) :=
      locate_of_mappings hindex (by simp [es, Entries.keys]) rfl
    exact hmappings.trans (locate_entry properties hindex hclear)
  | ofIndex before name after hname =>
    obtain ⟨hproperties, hothers, hmappings⟩ := hclear
    obtain rfl : index = .str name := hindex
    let es : Entries := before ++ (name, Shape.mappings.document properties) :: after
    have hfind : Entries.find? name es = some (Shape.mappings.document properties) :=
      Entries.find?_append_cons (Shape.notMem_before hname) _ _
    have hnone : "properties" ∉ Entries.keys es := by
      rw [Shape.mem_keys_ofIndex]
      exact not_or.2 ⟨hproperties.symm, hothers⟩
    by_cases hword : name = "mappings"
    · rw [hword] at hfind
      exact (locate_of_mappings (.inr ⟨_, rfl⟩) hnone hfind).trans
        (locate_mappings properties (.inr ⟨_, rfl⟩))
    · have hnone' : "mappings" ∉ Entries.keys es := by
        rw [Shape.mem_keys_ofIndex]
        exact not_or.2 ⟨Ne.symm hword, hmappings⟩
      exact (locate_of_name hnone hnone' hfind).trans (locate_mappings properties (.inl rfl))

/-! ## Names that are words -/

/-- What a shape is read as when one of its names is a word: the word leads to something that does not
depend on the properties, or to a mapping around them. -/
theorem misread {s : Shape} {index : Value} (hindex : s.AskedFor index) (hclear : ¬s.Clear) :
    (∃ located, ∀ properties, locate index (s.document properties) = located) ∨
    ∃ other : Shape, (other = .bare ∨ other = .mappings) ∧
      ∀ properties, locate index (s.document properties) = .ok (other.document properties) := by
  cases s with
  | bare | mappings => exact absurd trivial hclear
  | ofType type =>
    obtain rfl : type = "properties" := Classical.not_not.1 hclear
    refine .inr ⟨.bare, .inl rfl, fun properties => ?_⟩
    let es : Entries := [("mappings", .entry "properties" (Shape.bare.document properties))]
    have hmappings : locate index (.object es) =
        locate index (.entry "properties" (Shape.bare.document properties)) :=
      locate_of_mappings hindex (by simp [es, Entries.keys]) rfl
    exact hmappings.trans (locate_of_properties rfl)
  | ofIndex before name after hname =>
    obtain rfl : index = .str name := hindex
    have hother : ∀ {key}, key ≠ name → ∀ v, Entries.find? key (before ++ (name, v) :: after) =
        Entries.find? key (before ++ after) := fun h v => Entries.find?_among h before after v
    by_cases hproperties : name = "properties"
    · subst hproperties
      refine .inr ⟨.mappings, .inr rfl, fun properties => locate_of_properties ?_⟩
      exact Entries.find?_append_cons (Shape.notMem_before hname) _ _
    left
    by_cases hothers : "properties" ∈ Entries.keys (before ++ after)
    · obtain ⟨v, hv⟩ := Entries.exists_find?_iff.2 hothers
      exact ⟨.ok v, fun _ => locate_of_properties ((hother (Ne.symm hproperties) _).trans hv)⟩
    · have hmappings : "mappings" ∈ Entries.keys (before ++ after) :=
        Classical.not_not.1 fun h => hclear ⟨hproperties, hothers, h⟩
      have hne : "mappings" ≠ name := fun heq => hname (heq ▸ hmappings)
      obtain ⟨v, hv⟩ := Entries.exists_find?_iff.2 hmappings
      refine ⟨locate (.str name) v, fun properties => ?_⟩
      refine locate_of_mappings (.inr ⟨_, rfl⟩) ?_ ((hother hne _).trans hv)
      rw [Shape.mem_keys_ofIndex]
      exact not_or.2 ⟨Ne.symm hproperties, hothers⟩

/-- Properties that hold the words are other properties than none. -/
theorem flatten_document {s : Shape} (hs : s = .bare ∨ s = .mappings) :
    ∃ types, flatten "" (s.document (.object [])) = .ok types ∧ types ≠ [] := by
  rcases hs with rfl | rfl <;>
    simp [Shape.document, Value.entry, flatten, flattenFields, flattenBelow, multiFields,
      addMultiFields, Value.mapping?, Rows.ofEntries, Rows.under?, Entries.insert]

theorem flatten_keyword (base name : String) :
    flatten base (.entry name (.entry "type" (.str "keyword"))) =
      .ok [(base ++ name, .str "keyword")] := by
  simp [Value.entry, flatten, flattenFields, flattenBelow, multiFields, addMultiFields, typeOf,
    Value.mapping?, Value.asText, Rows.ofEntries, Rows.under?, Entries.insert]

theorem flatten_none : flatten "" (.object []) = .ok [] := by
  simp [flatten, flattenFields, Value.mapping?, Rows.ofEntries]

theorem Shape.isMapping_document (s : Shape) (properties : Value) :
    (s.document properties).isMapping = true := by
  cases s <;> rfl

end Mapping

namespace KeywordResolver

open Mapping

/-- A resolver depends on what the search of a document comes to. -/
theorem ofDocument_of_locate {document index properties : Value} (h : document.isMapping = true)
    (hlocate : locate index document = .ok properties) (suffix : String) :
    ofDocument document index suffix =
      ((flatten "" properties).mapError .misuse).map fun types => byType types suffix := by
  rw [ofDocument, fieldTypes_found h hlocate]

theorem ofDocument_bare (properties : Value) (suffix : String) :
    ofDocument (Shape.bare.document properties) .null suffix =
      ((flatten "" properties).mapError .misuse).map fun types => byType types suffix :=
  ofDocument_of_locate rfl (locate_bare properties) suffix

/-- A shape in which a name is a word describes another resolver for some properties. -/
theorem exists_misread {s : Shape} {index : Value} (hindex : s.AskedFor index) (hclear : ¬s.Clear)
    (suffix : String) : ∃ properties, IsProperties properties ∧
      ofDocument (s.document properties) index suffix ≠
        ofDocument (Shape.bare.document properties) .null suffix := by
  have hnone : IsProperties (.object []) := (flatten_isOk_iff "" _).1 ⟨_, flatten_none⟩
  rcases misread hindex hclear with ⟨located, hlocated⟩ | ⟨other, hother, hlocated⟩
  -- The document is read alike whatever the properties are, so not alike for these and for none.
  · obtain ⟨types, htypes, hne⟩ := flatten_document (s := .bare) (.inl rfl)
    have hsome : IsProperties (Shape.bare.document (.object [])) :=
      (flatten_isOk_iff "" _).1 ⟨_, htypes⟩
    refine Classical.byContradiction fun hagree => ?_
    have hagree : ∀ properties, IsProperties properties →
        ofDocument (s.document properties) index suffix =
          ofDocument (Shape.bare.document properties) .null suffix :=
      fun properties h => Classical.byContradiction fun hne => hagree ⟨properties, h, hne⟩
    have hsame : ofDocument (s.document (.object [])) index suffix =
        ofDocument (s.document (Shape.bare.document (.object []))) index suffix := by
      simp only [ofDocument, fieldTypes, Shape.isMapping_document, hlocated, if_true]
    rw [hagree _ hnone, hagree _ hsome, ofDocument_bare, ofDocument_bare, flatten_none, htypes]
      at hsame
    cases hsame
    exact hne rfl
  · obtain ⟨types, htypes, hne⟩ := flatten_document hother
    refine ⟨.object [], hnone, ?_⟩
    rw [ofDocument_of_locate (s.isMapping_document _) (hlocated _), ofDocument_bare, flatten_none,
      htypes]
    intro heq
    cases heq
    exact hne rfl

/-- **All shapes of a mapping document describe one resolver.** Whatever the properties are, a shape
gives the resolver, or the failure, that the properties give alone, and for a tree of properties a
resolver with its flattened types. This is so for the shapes in which no name is a word that the
search goes by, and for no others. -/
theorem shapes_agree (s : Shape) {index : Value} (hindex : s.AskedFor index) (suffix : String) :
    (s.Clear → ∀ properties,
      ofDocument (s.document properties) index suffix =
        ofDocument (Shape.bare.document properties) .null suffix ∧
      (IsProperties properties → ∃ types, flatten "" properties = .ok types ∧
        ofDocument (s.document properties) index suffix = .ok (byType types suffix))) ∧
    ((∀ properties, IsProperties properties →
      ofDocument (s.document properties) index suffix =
        ofDocument (Shape.bare.document properties) .null suffix) → s.Clear) := by
  constructor
  · intro hclear properties
    have hfound := ofDocument_of_locate (s.isMapping_document properties)
      (locate_document hindex hclear properties) suffix
    refine ⟨hfound.trans (ofDocument_bare properties suffix).symm, fun h => ?_⟩
    obtain ⟨types, htypes⟩ := (flatten_isOk_iff "" properties).2 h
    exact ⟨types, htypes, by rw [hfound, htypes]; rfl⟩
  · intro hagree
    refine Classical.byContradiction fun hclear => ?_
    obtain ⟨properties, h, hne⟩ := exists_misread hindex hclear suffix
    exact hne (hagree properties h)

/-- An index that is called `mappings`, after another one. -/
theorem shapes_agree_mappings :
    let s : Shape := .ofIndex [("films", .int 5)] "mappings" [] (by decide)
    let properties : Value := .entry "a" (.entry "type" (.str "keyword"))
    s.AskedFor (.str "mappings") ∧ s.Clear ∧ IsProperties properties ∧
      ofDocument (s.document properties) (.str "mappings") "keyword" =
        .ok (byType [("a", .str "keyword")] "keyword") := by
  intro s properties
  have hindex : s.AskedFor (.str "mappings") := rfl
  have hclear : s.Clear := ⟨by decide, by decide, by decide⟩
  have hflat : flatten "" properties = .ok [("a", .str "keyword")] := flatten_keyword "" "a"
  have hproperties : IsProperties properties := (flatten_isOk_iff "" _).1 ⟨_, hflat⟩
  obtain ⟨types, htypes, hanswer⟩ :=
    ((shapes_agree s hindex "keyword").1 hclear properties).2 hproperties
  cases hflat.symm.trans htypes
  exact ⟨hindex, hclear, hproperties, hanswer⟩

/-- A type that is called `properties` is read as a field, and an index that is called so as
properties with a field called `mappings`. Another index that is called `mappings` is read in the
place of the one that is asked for. -/
theorem shape_misread :
    let a : Value := .entry "a" (.entry "type" (.str "keyword"))
    let b : Value := .entry "b" (.entry "type" (.str "keyword"))
    let ofType : Shape := .ofType "properties"
    let called : Shape := .ofIndex [] "properties" [] (by decide)
    let beside : Shape := .ofIndex [] "books" [("mappings", Shape.mappings.document b)] (by decide)
    (¬ ∀ (s : Shape) (index properties : Value) (suffix : String), s.AskedFor index →
      ofDocument (s.document properties) index suffix =
        ofDocument (Shape.bare.document properties) .null suffix) ∧
    ofDocument (Shape.bare.document a) .null "keyword" =
      .ok (byType [("a", .str "keyword")] "keyword") ∧
    ofDocument (ofType.document a) .null "keyword" =
      .ok (byType [("properties", .str "object")] "keyword") ∧
    ofDocument (called.document a) (.str "properties") "keyword" =
      .ok (byType [("mappings", .str "object"), ("mappings.a", .str "keyword")] "keyword") ∧
    ofDocument (beside.document a) (.str "books") "keyword" =
      .ok (byType [("b", .str "keyword")] "keyword") := by
  intro a b ofType called beside
  have hbare : ofDocument (Shape.bare.document a) .null "keyword" =
      .ok (byType [("a", .str "keyword")] "keyword") := by
    rw [ofDocument_bare, flatten_keyword]
    rfl
  have htype : ofDocument (ofType.document a) .null "keyword" =
      .ok (byType [("properties", .str "object")] "keyword") := by
    have hlocate : locate .null (ofType.document a) = .ok (Shape.bare.document a) :=
      (locate_of_mappings (.inl rfl) (by decide) rfl).trans (locate_of_properties rfl)
    have hflat : flatten "" (Shape.bare.document a) = .ok [("properties", .str "object")] := by
      simp [a, Shape.document, Value.entry, flatten, flattenFields, flattenBelow, multiFields,
        addMultiFields, typeOf, Value.mapping?, Value.asText, Rows.ofEntries, Rows.under?,
        Entries.insert]
    rw [ofDocument_of_locate rfl hlocate, hflat]
    rfl
  have hcalled : ofDocument (called.document a) (.str "properties") "keyword" =
      .ok (byType [("mappings", .str "object"), ("mappings.a", .str "keyword")] "keyword") := by
    have hlocate : locate (.str "properties") (called.document a) =
        .ok (Shape.mappings.document a) := locate_of_properties rfl
    have hflat : flatten "" (Shape.mappings.document a) =
        .ok [("mappings", .str "object"), ("mappings.a", .str "keyword")] := by
      simp [a, Shape.document, Value.entry, flatten, flattenFields, flattenBelow, multiFields,
        addMultiFields, typeOf, Value.mapping?, Value.asText, Rows.ofEntries, Rows.under?,
        Entries.insert]
    rw [ofDocument_of_locate rfl hlocate, hflat]
    rfl
  have hbeside : ofDocument (beside.document a) (.str "books") "keyword" =
      .ok (byType [("b", .str "keyword")] "keyword") := by
    have hlocate : locate (.str "books") (beside.document a) = .ok b :=
      (locate_of_mappings (.inr ⟨_, rfl⟩) (by decide) rfl).trans
        (locate_mappings b (.inr ⟨_, rfl⟩))
    rw [ofDocument_of_locate rfl hlocate, flatten_keyword]
    rfl
  refine ⟨fun hagree => ?_, hbare, htype, hcalled, hbeside⟩
  have hsame := hagree ofType .null a "keyword" (.inl rfl)
  rw [hbare, htype] at hsame
  simp at hsame

end KeywordResolver

end SearchRequest
