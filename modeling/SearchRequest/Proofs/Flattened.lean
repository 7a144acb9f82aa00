import SearchRequest.Mapping.FieldTypes
import SearchRequest.Proofs.Entries
/-
What flattening the properties of a mapping reports. `Declares` says which paths properties declare
and with which types, and `listed` puts them in order: a field, then its multi-fields, then what is
declared below it. Flattening succeeds on exactly the trees of properties (`flatten_isOk_iff`), and
there it lays the listed fields on one after the other (`flatten_eq`), so that it reports the
declared paths and no others, and of equal paths the last one (`flatten_reports`).
-/
namespace SearchRequest

namespace Mapping

/-! ## What properties declare -/

/-- Properties define a field by a mapping. -/
def Defines (properties : Value) (name : String) (definition : Rows) : Prop :=
  ∃ fields key spec, properties.mapping? = some fields ∧ (key, spec) ∈ fields ∧
    key.asText = name ∧ spec.mapping? = some definition

/-- Properties declare a path with a type: that of a field, of one of its multi-fields, or of
what the properties of the field declare. -/
inductive Declares : Value → String → Value → Prop
  | field {properties : Value} {name : String} {definition : Rows}
      (h : Defines properties name definition) : Declares properties name (typeOf definition)
  | multiField {properties fields : Value} {name sub : String} {definition subDefinition : Rows}
      (h : Defines properties name definition)
      (hfields : Rows.under? "fields" definition = some fields)
      (hsub : Defines fields sub subDefinition) :
      Declares properties (name ++ "." ++ sub) (typeOf subDefinition)
  | inner {properties inner type : Value} {name path : String} {definition : Rows}
      (h : Defines properties name definition)
      (hinner : Rows.under? "properties" definition = some inner)
      (hpath : Declares inner path type) : Declares properties (name ++ "." ++ path) type

/-- The multi-fields of a definition are a mapping, or count as absent. -/
def HasMultiFields (definition : Rows) : Prop :=
  ∀ fields, Rows.under? "fields" definition = some fields →
    fields.isMapping = true ∨ fields.truthy = false

/-- A tree of properties: a mapping, in which the properties of every definition are a tree again,
and its multi-fields a mapping if they are given. -/
inductive IsProperties : Value → Prop
  | intro {properties : Value} (hmapping : properties.isMapping = true)
      (hfields : ∀ name definition, Defines properties name definition → HasMultiFields definition)
      (hbelow : ∀ name definition, Defines properties name definition →
        ∀ inner, Rows.under? "properties" definition = some inner → IsProperties inner) :
      IsProperties properties

/-- An entry with its path behind another one. -/
def behind (base : String) : String × Value → String × Value :=
  Prod.map (base ++ ·) id

/-- The name and type of a multi-field; what is no definition has none. -/
def multiField? (field : Value × Value) : Option (String × Value) :=
  field.2.mapping?.map fun definition => (field.1.asText, typeOf definition)

/-- The names and types of the definitions in a mapping of multi-fields. -/
def multiListed (fields : Rows) : FieldTypes :=
  fields.filterMap multiField?

/-- The multi-fields of a definition with their types. -/
def multiFieldsListed (definition : Rows) : FieldTypes :=
  match (Rows.under? "fields" definition).bind Value.mapping? with
  | none => []
  | some fields => multiListed fields

mutual

/-- All that properties declare, in order. -/
def listed (properties : Value) : FieldTypes :=
  match h : properties.mapping? with
  | none => []
  | some fields =>
    have := Value.weight_lt_sizeOf h
    listedFields fields
termination_by sizeOf properties

/-- What fields declare, one after the other. -/
def listedFields (fields : Rows) : FieldTypes :=
  match fields with
  | [] => []
  | (name, spec) :: rest =>
    have := Rows.weight_lt_cons (name, spec) rest
    match h : spec.mapping? with
    | none => listedFields rest
    | some definition =>
      have := Value.weight_lt_cons h name rest
      (name.asText, typeOf definition) ::
        (multiFieldsListed definition ++ listedBelow definition).map (behind (name.asText ++ ".")) ++
        listedFields rest
termination_by fields.weight

/-- What the properties of a definition declare. -/
def listedBelow (definition : Rows) : FieldTypes :=
  match h : Rows.under? "properties" definition with
  | none => []
  | some properties =>
    have := Rows.sizeOf_lt_of_under? h
    listed properties
termination_by definition.weight

end

/-! ## One level at a time -/

section
variable {v spec : Value} {fields definition : Rows} (base : String) (name : Value) (rest : Rows)
  (types : FieldTypes)

theorem isMapping_iff : v.isMapping = true ↔ ∃ fields, v.mapping? = some fields := by
  cases v <;> simp [Value.isMapping, Value.mapping?]

theorem flatten_mapping (h : v.mapping? = some fields) :
    flatten base v = flattenFields base fields [] := by
  rw [flatten]
  split
  · simp_all
  · simp_all

theorem flatten_other (h : v.mapping? = none) : flatten base v = .error .part := by
  rw [flatten]
  split
  · rfl
  · simp_all

theorem flattenFields_nil : flattenFields base [] types = .ok types := by
  rw [flattenFields]

theorem flattenFields_skip (h : spec.mapping? = none) :
    flattenFields base ((name, spec) :: rest) types = flattenFields base rest types := by
  rw [flattenFields]
  split
  · rfl
  · simp_all

theorem flattenFields_definition (h : spec.mapping? = some definition) :
    flattenFields base ((name, spec) :: rest) types =
      (multiFields definition).bind fun subFields =>
        (flattenBelow (base ++ name.asText ++ ".") definition).bind fun below =>
          flattenFields base rest (Entries.overlay
            (addMultiFields (base ++ name.asText) subFields
              (Entries.insert (base ++ name.asText) (typeOf definition) types)) below) := by
  rw [flattenFields]
  split
  · simp_all
  · rename_i definition' h'
    cases h.symm.trans h'
    cases multiFields definition with
    | error e => rfl
    | ok subFields =>
      cases hbelow : flattenBelow (base ++ name.asText ++ ".") definition <;>
        simp [Except.bind, hbelow]

theorem flattenBelow_none (h : Rows.under? "properties" definition = none) :
    flattenBelow base definition = .ok [] := by
  rw [flattenBelow]
  split
  · rfl
  · simp_all

theorem flattenBelow_some (h : Rows.under? "properties" definition = some v) :
    flattenBelow base definition = flatten base v := by
  rw [flattenBelow]
  split
  · simp_all
  · simp_all

theorem listed_mapping (h : v.mapping? = some fields) : listed v = listedFields fields := by
  rw [listed]
  split
  · simp_all
  · simp_all

theorem listed_other (h : v.mapping? = none) : listed v = [] := by
  rw [listed]
  split
  · rfl
  · simp_all

theorem listedFields_nil : listedFields [] = [] := by
  rw [listedFields]

theorem listedFields_skip (h : spec.mapping? = none) :
    listedFields ((name, spec) :: rest) = listedFields rest := by
  rw [listedFields]
  split
  · rfl
  · simp_all

theorem listedFields_definition (h : spec.mapping? = some definition) :
    listedFields ((name, spec) :: rest) =
      (name.asText, typeOf definition) ::
        (multiFieldsListed definition ++ listedBelow definition).map (behind (name.asText ++ ".")) ++
        listedFields rest := by
  rw [listedFields]
  split
  · simp_all
  · rename_i definition' h'
    cases h.symm.trans h'
    rfl

theorem listedBelow_none (h : Rows.under? "properties" definition = none) :
    listedBelow definition = [] := by
  rw [listedBelow]
  split
  · rfl
  · simp_all

theorem listedBelow_some (h : Rows.under? "properties" definition = some v) :
    listedBelow definition = listed v := by
  rw [listedBelow]
  split
  · simp_all
  · simp_all

end

/-! ## Multi-fields -/

theorem behind_behind (base path : String) (e : String × Value) :
    behind base (behind path e) = behind (base ++ path) e := by
  simp [behind, Prod.map, String.append_assoc]

theorem map_behind_behind (base path : String) (es : FieldTypes) :
    (es.map (behind path)).map (behind base) = es.map (behind (base ++ path)) := by
  rw [List.map_map]
  exact List.map_congr_left fun e _ => behind_behind base path e

theorem addMultiFields_eq (path : String) (fields : Rows) (types : FieldTypes) :
    addMultiFields path fields types =
      Entries.overlay types ((multiListed fields).map (behind (path ++ "."))) := by
  induction fields generalizing types with
  | nil => rfl
  | cons field fields ih =>
    obtain ⟨name, spec⟩ := field
    rw [addMultiFields, multiListed]
    cases h : spec.mapping? with
    | none =>
      have hnone : multiField? (name, spec) = none := by simp [multiField?, h]
      rw [List.filterMap_cons_none hnone]
      exact ih types
    | some definition =>
      have hsome : multiField? (name, spec) = some (name.asText, typeOf definition) := by
        simp [multiField?, h]
      rw [List.filterMap_cons_some hsome, List.map_cons, Entries.overlay_cons]
      exact ih _

theorem multiFields_of {definition : Rows} (h : HasMultiFields definition) :
    ∃ subFields, multiFields definition = .ok subFields ∧
      multiListed subFields = multiFieldsListed definition := by
  unfold multiFields multiFieldsListed
  cases hfields : Rows.under? "fields" definition with
  | none => exact ⟨[], rfl, rfl⟩
  | some fields =>
    dsimp only [Option.bind_some]
    cases hmapping : fields.mapping? with
    | some rows => exact ⟨rows, rfl, rfl⟩
    | none =>
      have hnot : ¬ fields.isMapping = true := by
        rw [isMapping_iff, hmapping]
        simp
      have hfalsy : fields.truthy = false := (h fields hfields).resolve_left hnot
      exact ⟨[], by simp [hfalsy], rfl⟩

theorem hasMultiFields_of_ok {definition subFields : Rows}
    (h : multiFields definition = .ok subFields) : HasMultiFields definition := by
  intro fields hfields
  simp only [multiFields, hfields] at h
  cases hmapping : fields.mapping? with
  | some rows => exact .inl (isMapping_iff.2 ⟨rows, hmapping⟩)
  | none =>
    cases htruthy : fields.truthy with
    | false => exact .inr rfl
    | true => simp [hmapping, htruthy] at h

/-! ## Flattening lays the listed fields on -/

theorem injective_append (base : String) : Function.Injective (base ++ ·) := by
  intro s t h
  apply String.toList_injective
  have hchars : base.toList ++ s.toList = base.toList ++ t.toList := by
    simpa using congrArg String.toList h
  exact List.append_cancel_left hchars

/-- Fields are added one after the other, when what stands below each of them flattens to what it
lists. -/
theorem flattenFields_eq {fields : Rows}
    (h : ∀ key spec definition, (key, spec) ∈ fields → spec.mapping? = some definition →
      HasMultiFields definition ∧ ∀ base, flattenBelow base definition =
        .ok (Entries.overlay [] ((listedBelow definition).map (behind base))))
    (base : String) (types : FieldTypes) :
    flattenFields base fields types =
      .ok (Entries.overlay types ((listedFields fields).map (behind base))) := by
  induction fields generalizing types with
  | nil => rw [flattenFields_nil, listedFields_nil, List.map_nil, Entries.overlay_nil]
  | cons field fields ih =>
    obtain ⟨name, spec⟩ := field
    have ih := ih fun key spec definition hmem => h key spec definition (List.mem_cons_of_mem _ hmem)
    cases hspec : spec.mapping? with
    | none => rw [flattenFields_skip _ _ _ _ hspec, listedFields_skip _ _ hspec, ih]
    | some definition =>
      obtain ⟨hfields, hbelow⟩ := h name spec definition List.mem_cons_self hspec
      obtain ⟨subFields, hsub, hlisted⟩ := multiFields_of hfields
      have hpath : base ++ name.asText ++ "." = base ++ (name.asText ++ ".") :=
        String.append_assoc ..
      rw [flattenFields_definition _ _ _ _ hspec, listedFields_definition _ _ hspec, hsub]
      simp only [Except.bind, hbelow, ih, addMultiFields_eq, hlisted, Entries.overlay_overlay,
        List.map_append, List.map_cons, map_behind_behind, hpath, List.cons_append,
        Entries.overlay_cons, Entries.overlay_append]
      rfl

/-- Flattening a tree of properties lays all that it lists on, one after the other. -/
theorem flatten_eq {v : Value} (h : IsProperties v) (base : String) :
    flatten base v = .ok (Entries.overlay [] ((listed v).map (behind base))) := by
  induction h generalizing base with
  | @intro properties hmapping hfields hbelow ih =>
    obtain ⟨fields, hrows⟩ := isMapping_iff.1 hmapping
    rw [flatten_mapping _ hrows, listed_mapping hrows]
    apply flattenFields_eq
    intro key spec definition hmem hspec
    have hdefines : Defines properties key.asText definition :=
      ⟨fields, key, spec, hrows, hmem, rfl, hspec⟩
    refine ⟨hfields _ _ hdefines, fun base => ?_⟩
    cases hinner : Rows.under? "properties" definition with
    | none =>
      rw [flattenBelow_none _ hinner, listedBelow_none hinner]
      rfl
    | some inner =>
      rw [flattenBelow_some _ hinner, listedBelow_some hinner]
      exact ih _ _ hdefines inner hinner base

/-- What is flattened without a failure is a tree of properties. -/
theorem ok_of_flattenFields {base : String} {fields : Rows} {types types' : FieldTypes}
    (h : flattenFields base fields types = .ok types') {key spec : Value} {definition : Rows}
    (hmem : (key, spec) ∈ fields) (hspec : spec.mapping? = some definition) :
    HasMultiFields definition ∧ ∃ base below, flattenBelow base definition = .ok below := by
  induction fields generalizing types with
  | nil => cases hmem
  | cons field fields ih =>
    obtain ⟨name, first⟩ := field
    cases hfirst : first.mapping? with
    | none =>
      rw [flattenFields_skip _ _ _ _ hfirst] at h
      rcases List.mem_cons.1 hmem with heq | hmem
      · cases heq
        rw [hspec] at hfirst
        cases hfirst
      · exact ih h hmem
    | some firstDefinition =>
      rw [flattenFields_definition _ _ _ _ hfirst] at h
      cases hsub : multiFields firstDefinition with
      | error e =>
        rw [hsub] at h
        cases h
      | ok subFields =>
        cases hbelow : flattenBelow (base ++ name.asText ++ ".") firstDefinition with
        | error e =>
          simp only [hsub, hbelow, Except.bind] at h
          cases h
        | ok below =>
          simp only [hsub, hbelow, Except.bind] at h
          rcases List.mem_cons.1 hmem with heq | hmem
          · cases heq
            cases hspec.symm.trans hfirst
            exact ⟨hasMultiFields_of_ok hsub, _, _, hbelow⟩
          · exact ih h hmem

/-- What stands below a definition is smaller than the properties with the definition. -/
theorem sizeOf_lt_of_defines {v inner : Value} {name : String} {definition : Rows}
    (h : Defines v name definition) (hinner : Rows.under? "properties" definition = some inner) :
    sizeOf inner < sizeOf v := by
  obtain ⟨fields, key, spec, hfields, hmem, -, hspec⟩ := h
  calc sizeOf inner
    _ < definition.weight := Rows.sizeOf_lt_of_under? hinner
    _ < sizeOf spec := Value.weight_lt_sizeOf hspec
    _ < fields.weight := Rows.sizeOf_lt_weight hmem
    _ < sizeOf v := Value.weight_lt_sizeOf hfields

theorem isProperties_of_flatten {base : String} {v : Value} {types : FieldTypes}
    (h : flatten base v = .ok types) : IsProperties v := by
  cases hmapping : v.mapping? with
  | none =>
    rw [flatten_other _ hmapping] at h
    cases h
  | some fields =>
    rw [flatten_mapping _ hmapping] at h
    refine .intro (isMapping_iff.2 ⟨fields, hmapping⟩) ?_ ?_
    · rintro name definition ⟨fields', key, spec, hfields', hmem, -, hspec⟩
      cases hmapping.symm.trans hfields'
      exact (ok_of_flattenFields h hmem hspec).1
    · intro name definition hdefines inner hinner
      obtain ⟨fields', key, spec, hfields', hmem, -, hspec⟩ := id hdefines
      cases hmapping.symm.trans hfields'
      obtain ⟨-, base', below, hbelow⟩ := ok_of_flattenFields h hmem hspec
      rw [flattenBelow_some _ hinner] at hbelow
      have hlt := sizeOf_lt_of_defines hdefines hinner
      exact isProperties_of_flatten hbelow
termination_by sizeOf v

/-- Flattening succeeds on the trees of properties, and on nothing else. -/
theorem flatten_isOk_iff (base : String) (v : Value) :
    (∃ types, flatten base v = .ok types) ↔ IsProperties v :=
  ⟨fun ⟨_, h⟩ => isProperties_of_flatten h, fun h => ⟨_, flatten_eq h base⟩⟩

/-! ## What is listed is what is declared -/

theorem mem_map_behind {base path : String} {type : Value} {es : FieldTypes} :
    (path, type) ∈ es.map (behind base) ↔ ∃ rest, path = base ++ rest ∧ (rest, type) ∈ es := by
  rw [List.mem_map]
  constructor
  · rintro ⟨⟨rest, type'⟩, hmem, heq⟩
    cases heq
    exact ⟨rest, rfl, hmem⟩
  · rintro ⟨rest, rfl, hmem⟩
    exact ⟨(rest, type), hmem, rfl⟩

theorem mem_multiFieldsListed {definition : Rows} {sub : String} {type : Value} :
    (sub, type) ∈ multiFieldsListed definition ↔
      ∃ fields subDefinition, Rows.under? "fields" definition = some fields ∧
        Defines fields sub subDefinition ∧ type = typeOf subDefinition := by
  unfold multiFieldsListed
  constructor
  · intro h
    split at h
    · cases h
    · rename_i rows hrows
      obtain ⟨fields, hfields, hmapping⟩ := Option.bind_eq_some_iff.1 hrows
      obtain ⟨⟨key, spec⟩, hmem, heq⟩ := List.mem_filterMap.1 h
      obtain ⟨subDefinition, hspec, heq⟩ := Option.map_eq_some_iff.1 heq
      cases heq
      exact ⟨fields, subDefinition, hfields, ⟨rows, key, spec, hmapping, hmem, rfl, hspec⟩, rfl⟩
  · rintro ⟨fields, subDefinition, hfields, ⟨rows, key, spec, hmapping, hmem, rfl, hspec⟩, rfl⟩
    rw [hfields, Option.bind_some, hmapping]
    exact List.mem_filterMap.2 ⟨(key, spec), hmem, Option.map_eq_some_iff.2 ⟨_, hspec, rfl⟩⟩

theorem mem_listedBelow {definition : Rows} {e : String × Value} :
    e ∈ listedBelow definition ↔
      ∃ inner, Rows.under? "properties" definition = some inner ∧ e ∈ listed inner := by
  cases hinner : Rows.under? "properties" definition with
  | none => simp [listedBelow_none hinner]
  | some inner => simp [listedBelow_some hinner]

theorem mem_listedFields {fields : Rows} {path : String} {type : Value} :
    (path, type) ∈ listedFields fields ↔
      ∃ key spec definition, (key, spec) ∈ fields ∧ spec.mapping? = some definition ∧
        ((path = key.asText ∧ type = typeOf definition) ∨
          ∃ rest, path = key.asText ++ "." ++ rest ∧
            ((rest, type) ∈ multiFieldsListed definition ∨ (rest, type) ∈ listedBelow definition)) := by
  induction fields with
  | nil => simp [listedFields_nil]
  | cons field fields ih =>
    obtain ⟨name, spec⟩ := field
    cases hspec : spec.mapping? with
    | none =>
      rw [listedFields_skip _ _ hspec, ih]
      constructor
      · rintro ⟨key, spec', definition, hmem, h⟩
        exact ⟨key, spec', definition, List.mem_cons_of_mem _ hmem, h⟩
      · rintro ⟨key, spec', definition, hmem, hspec', h⟩
        rcases List.mem_cons.1 hmem with heq | hmem
        · cases heq
          rw [hspec] at hspec'
          cases hspec'
        · exact ⟨key, spec', definition, hmem, hspec', h⟩
    | some definition =>
      rw [listedFields_definition _ _ hspec, List.cons_append, List.mem_cons, List.mem_append,
        mem_map_behind, ih]
      constructor
      · rintro (heq | ⟨rest, rfl, hmem⟩ | ⟨key, spec', definition', hmem, h⟩)
        · cases heq
          exact ⟨name, spec, definition, List.mem_cons_self, hspec, .inl ⟨rfl, rfl⟩⟩
        · exact ⟨name, spec, definition, List.mem_cons_self, hspec,
            .inr ⟨rest, rfl, List.mem_append.1 hmem⟩⟩
        · exact ⟨key, spec', definition', List.mem_cons_of_mem _ hmem, h⟩
      · rintro ⟨key, spec', definition', hmem, hspec', h⟩
        rcases List.mem_cons.1 hmem with heq | hmem
        · cases heq
          cases hspec.symm.trans hspec'
          rcases h with ⟨rfl, rfl⟩ | ⟨rest, rfl, h⟩
          · exact .inl rfl
          · exact .inr (.inl ⟨rest, rfl, List.mem_append.2 h⟩)
        · exact .inr (.inr ⟨key, spec', definition', hmem, hspec', h⟩)

theorem mem_listed_iff {v : Value} {path : String} {type : Value} :
    (path, type) ∈ listed v ↔ Declares v path type := by
  constructor
  · intro h
    cases hmapping : v.mapping? with
    | none =>
      rw [listed_other hmapping] at h
      cases h
    | some fields =>
      rw [listed_mapping hmapping] at h
      obtain ⟨key, spec, definition, hmem, hspec, h⟩ := mem_listedFields.1 h
      have hdefines : Defines v key.asText definition :=
        ⟨fields, key, spec, hmapping, hmem, rfl, hspec⟩
      rcases h with ⟨rfl, rfl⟩ | ⟨rest, rfl, h | h⟩
      · exact .field hdefines
      · obtain ⟨subFields, subDefinition, hfields, hsub, rfl⟩ := mem_multiFieldsListed.1 h
        exact .multiField hdefines hfields hsub
      · obtain ⟨inner, hinner, h⟩ := mem_listedBelow.1 h
        have hlt := sizeOf_lt_of_defines hdefines hinner
        exact .inner hdefines hinner (mem_listed_iff.1 h)
  · intro h
    induction h with
    | field h =>
      obtain ⟨fields, key, spec, hmapping, hmem, rfl, hspec⟩ := h
      rw [listed_mapping hmapping]
      exact mem_listedFields.2 ⟨key, spec, _, hmem, hspec, .inl ⟨rfl, rfl⟩⟩
    | multiField h hfields hsub =>
      obtain ⟨fields, key, spec, hmapping, hmem, rfl, hspec⟩ := h
      rw [listed_mapping hmapping]
      refine mem_listedFields.2 ⟨key, spec, _, hmem, hspec, .inr ⟨_, rfl, .inl ?_⟩⟩
      exact mem_multiFieldsListed.2 ⟨_, _, hfields, hsub, rfl⟩
    | inner h hinner hpath ih =>
      obtain ⟨fields, key, spec, hmapping, hmem, rfl, hspec⟩ := h
      rw [listed_mapping hmapping]
      refine mem_listedFields.2 ⟨key, spec, _, hmem, hspec, .inr ⟨_, rfl, .inr ?_⟩⟩
      exact mem_listedBelow.2 ⟨_, hinner, ih⟩
termination_by sizeOf v

/-- **Flattening reports what is declared.** A tree of properties flattens to the declared paths, each
of them once and no others. When no path is declared twice, each has the declared type; in any case
the last one that is listed for a path counts. With a base all paths stand behind it. -/
theorem flatten_reports {v : Value} (h : IsProperties v) :
    ∃ types, flatten "" v = .ok types ∧ (Entries.keys types).Nodup ∧
      (∀ path, path ∈ Entries.keys types ↔ ∃ type, Declares v path type) ∧
      (∀ path type, (path, type) ∈ listed v ↔ Declares v path type) ∧
      ((Entries.keys (listed v)).Nodup →
        ∀ path type, Entries.find? path types = some type ↔ Declares v path type) ∧
      (∀ path, Entries.find? path types = Entries.find? path (listed v).reverse) ∧
      ∀ base, flatten base v = .ok (types.map (behind base)) := by
  have hroot : (listed v).map (behind "") = listed v := by
    have hbehind : behind "" = id := by
      funext ⟨path, type⟩
      simp [behind]
    rw [hbehind, List.map_id]
  have hbase : ∀ base, flatten base v = .ok ((Entries.overlay [] (listed v)).map (behind base)) := by
    intro base
    rw [flatten_eq h base]
    exact congrArg _ (Entries.overlay_map (injective_append base) [] (listed v))
  have hempty : (Entries.keys ([] : FieldTypes)).Nodup := List.nodup_nil
  refine ⟨Entries.overlay [] (listed v), ?_, Entries.nodup_keys_overlay hempty _, ?_,
    fun _ _ => mem_listed_iff, ?_, fun path => Entries.find?_overlay_nil path _, hbase⟩
  · rw [flatten_eq h, hroot]
  · intro path
    rw [Entries.mem_keys_overlay_nil, Entries.keys, List.mem_map]
    constructor
    · rintro ⟨⟨path, type⟩, hmem, rfl⟩
      exact ⟨type, mem_listed_iff.1 hmem⟩
    · rintro ⟨type, hdeclares⟩
      exact ⟨(path, type), mem_listed_iff.2 hdeclares, rfl⟩
  · intro hn path type
    have hn' : (Entries.keys (listed v).reverse).Nodup :=
      ((List.reverse_perm (listed v)).map Prod.fst).nodup_iff.2 hn
    rw [Entries.find?_overlay_nil, Entries.find?_eq_some_iff hn', List.mem_reverse]
    exact mem_listed_iff

/-- A path that a multi-field, a field below and a field with a dot in its name have in common. -/
theorem flatten_reports_shared :
    let v : Value := .object
      [("a", .object [("type", .str "text"),
        ("fields", .object [("b", .object [("type", .str "keyword")])]),
        ("properties", .object [("b", .object [("type", .str "long")])])]),
      ("c", .int 1), ("a.b", .object [("fields", .list [])])]
    IsProperties v ∧ ∃ types, flatten "" v = .ok types ∧
      Entries.find? "a.b" types = some (.str "object") ∧
      flatten "x." v = .ok (types.map (behind "x.")) := by
  intro v
  have hlisted : listed v = [("a", .str "text"), ("a.b", .str "keyword"), ("a.b", .str "long"),
      ("a.b", .str "object")] := by
    simp [v, listed, listedFields, listedBelow, multiFieldsListed, multiListed, multiField?, typeOf,
      behind, Value.mapping?, Value.asText, Rows.ofEntries, Rows.under?]
  have hok : ∃ types, flatten "" v = .ok types := by
    simp [v, flatten, flattenFields, flattenBelow, multiFields, Value.mapping?, Value.truthy,
      Rows.ofEntries, Rows.under?]
  have hv : IsProperties v := (flatten_isOk_iff "" v).1 hok
  obtain ⟨types, hok, -, -, -, -, hlast, hbase⟩ := flatten_reports hv
  refine ⟨hv, types, hok, ?_, hbase "x."⟩
  rw [hlast, hlisted]
  rfl

end Mapping

end SearchRequest
