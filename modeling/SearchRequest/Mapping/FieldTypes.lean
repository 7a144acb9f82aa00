import SearchRequest.Entries
import SearchRequest.Error.Basic
import SearchRequest.Text.Occurrence
import SearchRequest.Value.Display
import SearchRequest.Value.Order
/-
The fields of an index mapping as a flat list of paths with their types. A field is reported under
its path, then its multi-fields under the path and their names, then the fields below it.

The properties of a document are searched level by level. `step` says what one level holds: the
properties themselves, or the part of the document where the search goes on.
-/
namespace SearchRequest

/-- The types of fields by path. -/
abbrev FieldTypes := List (String × Value)

namespace Mapping

/-! ## The types of fields -/

/-- The type of a definition; a definition without one is an object. -/
def typeOf (definition : Rows) : Value :=
  (Rows.under? "type" definition).getD (.str "object")

/-- The types with those of multi-fields added; what is no definition is passed over. -/
def addMultiFields (path : String) : Rows → FieldTypes → FieldTypes
  | [], types => types
  | (name, spec) :: rest, types =>
    match spec.mapping? with
    | none => addMultiFields path rest types
    | some definition =>
      addMultiFields path rest
        (Entries.insert (path ++ "." ++ name.asText) (typeOf definition) types)

/-- The multi-fields of a definition; none when the entry is absent or counts as absent. -/
def multiFields (definition : Rows) : Except Misuse Rows :=
  match Rows.under? "fields" definition with
  | none => .ok []
  | some v =>
    match v.mapping? with
    | some fields => .ok fields
    | none => if v.truthy then .error .part else .ok []

mutual

/-- The types of all fields below `base`, a path that ends in a dot or is empty. -/
def flatten (base : String) (properties : Value) : Except Misuse FieldTypes :=
  match h : properties.mapping? with
  | none => .error .part
  | some fields =>
    have := Value.weight_lt_sizeOf h
    flattenFields base fields []
termination_by sizeOf properties

/-- The types with those of the given fields added. -/
def flattenFields (base : String) (fields : Rows) (types : FieldTypes) : Except Misuse FieldTypes :=
  match fields with
  | [] => .ok types
  | (name, spec) :: rest =>
    have := Rows.weight_lt_cons (name, spec) rest
    match h : spec.mapping? with
    | none => flattenFields base rest types
    | some definition =>
      have := Value.weight_lt_cons h name rest
      let path := base ++ name.asText
      match multiFields definition with
      | .error e => .error e
      | .ok subFields =>
        let types := addMultiFields path subFields (Entries.insert path (typeOf definition) types)
        match flattenBelow (path ++ ".") definition with
        | .error e => .error e
        | .ok below => flattenFields base rest (Entries.overlay types below)
termination_by fields.weight

/-- The types of the fields below a definition, none when it has no properties. -/
def flattenBelow (base : String) (definition : Rows) : Except Misuse FieldTypes :=
  match h : Rows.under? "properties" definition with
  | none => .ok []
  | some properties =>
    have := Rows.sizeOf_lt_of_under? h
    flatten base properties
termination_by definition.weight

end

/-! ## The search for properties -/

/-- What a level of a document holds. -/
inductive Step
  /-- The properties. -/
  | found (properties : Value)
  /-- The part where the search goes on, and the name of the index if it is still looked for. -/
  | into (index part : Value)

/-- The failure for items that hold no properties. -/
def noProperties (index : Value) (items : List Value) : Error :=
  match Value.sort? items with
  | some keys => .noProperties index keys
  | none => .misuse .kind

/-- The value under the name of the index, if there is one. -/
def named? (index : Value) (rows : Rows) : Except Misuse (Option Value) :=
  if index.isNull then .ok none
  else if index.isKey then .ok (Rows.lookup? index rows)
  else .error .kind

/-- The only value of a mapping, if that is a mapping. -/
def onlyMapping? : Rows → Option Value
  | [(_, v)] => if v.isMapping then some v else none
  | _ => none

/-- A mapping holds properties, or leads to them by its mappings, by what stands under the name of
the index, or by the only mapping in it. -/
def stepInMapping (index : Value) (rows : Rows) : Except Error Step :=
  match Rows.under? "properties" rows with
  | some properties => .ok (.found properties)
  | none =>
    match Rows.under? "mappings" rows with
    | some mappings => .ok (.into index mappings)
    | none =>
      match named? index rows with
      | .error e => .error (.misuse e)
      | .ok (some part) => .ok (.into .null part)
      | .ok none =>
        match onlyMapping? rows with
        | some part => .ok (.into .null part)
        | none => .error (noProperties index (rows.map (·.1)))

/-- The failure for the items of what is no mapping. A single item is looked at as if it were the
value of a mapping. -/
def noEntries (index : Value) (items : List Value) : Error :=
  if items.length = 1 then .misuse .part else noProperties index items

/-- Whether a value is among others. -/
def isAmong (v : Value) (items : List Value) : Bool :=
  items.any (v.same ·)

/-- Whether one of the words that lead to properties is among values. -/
def holdsWord (items : List Value) : Bool :=
  isAmong (.str "properties") items || isAmong (.str "mappings") items

/-- Looking for properties in what is neither a mapping nor a list. A text or a set has no entries,
so nothing can be taken out of it even when the name occurs in it. -/
def noMapping (index : Value) (v : Value) : Error :=
  match v with
  | .str s =>
    let occurs (name : String) : Bool := Text.occursIn name.toList s.toList
    let characters := s.toList.map fun c => Value.str (String.singleton c)
    if occurs "properties" || occurs "mappings" then .misuse .kind
    else match index with
      | .null => noEntries index characters
      | .str name => if occurs name then .misuse .kind else noEntries index characters
      | _ => .misuse .kind
  | .set items | .frozenset items =>
    if holdsWord items then .misuse .kind
    else match index with
      | .null => noEntries index items
      | .set _ => if isAmong index items then .misuse .kind else noEntries index items
      | index =>
        if isAmong index items || !index.isKey then .misuse .kind else noEntries index items
  | _ => .misuse .kind

/-- The position in a list that a whole number names; one below zero counts from the end. -/
def position (length : Nat) (index : Value) : Except Misuse Nat :=
  let whole? : Option Int := match index with
    | .int i => some i
    | .bool b => some (if b then 1 else 0)
    | _ => none
  match whole? with
  | none => .error .kind
  | some i =>
    let i := if i < 0 then i + length else i
    if i < 0 then .error .index else .ok i.toNat

/-- The item of a list at the position that the index is, if the index is also among the items. -/
def itemAt (index : Value) (items : List Value) : Except Error Value :=
  if holdsWord items then .error (.misuse .kind)
  else if index.isNull || !isAmong index items then .error (noEntries index items)
  else match position items.length index with
    | .error e => .error (.misuse e)
    | .ok n =>
      match items[n]? with
      | some part => .ok part
      | none => .error (.misuse .index)

/-- What a level holds that is no mapping. -/
def stepElsewhere (index : Value) : Value → Except Error Step
  | .list items | .tuple items => (itemAt index items).map (.into .null)
  | v => .error (noMapping index v)

/-- What a level of a document holds. -/
def step (index v : Value) : Except Error Step :=
  match v.mapping? with
  | some rows => stepInMapping index rows
  | none => stepElsewhere index v

theorem eq_of_onlyMapping? {rows : Rows} {v : Value} (h : onlyMapping? rows = some v) :
    ∃ k, rows = [(k, v)] ∧ v.isMapping = true := by
  unfold onlyMapping? at h
  split at h
  · obtain ⟨hv, heq⟩ := Option.ite_none_right_eq_some.1 h
    cases heq
    exact ⟨_, rfl, hv⟩
  · cases h

theorem lookup?_of_named? {index : Value} {rows : Rows} {v : Value}
    (h : named? index rows = .ok (some v)) : Rows.lookup? index rows = some v := by
  unfold named? at h
  split at h
  · cases h
  · split at h
    · exact Except.ok.inj h
    · cases h

/-- The search goes on in a value of the mapping. -/
theorem mem_of_stepInMapping {index index' part : Value} {rows : Rows}
    (h : stepInMapping index rows = .ok (.into index' part)) : ∃ k, (k, part) ∈ rows := by
  unfold stepInMapping at h
  split at h
  · cases h
  · split at h
    · rename_i hmappings
      cases h
      exact Rows.mem_of_under? hmappings
    · split at h
      · cases h
      · rename_i hnamed
        cases h
        obtain ⟨k, hk, -⟩ := Rows.mem_of_lookup? (lookup?_of_named? hnamed)
        exact ⟨k, hk⟩
      · split at h
        · rename_i honly
          cases h
          obtain ⟨k, rfl, -⟩ := eq_of_onlyMapping? honly
          exact ⟨k, List.mem_singleton_self _⟩
        · cases h

theorem mem_of_itemAt {index part : Value} {items : List Value}
    (h : itemAt index items = .ok part) : part ∈ items := by
  unfold itemAt at h
  split at h
  · cases h
  · split at h
    · cases h
    · split at h
      · cases h
      · split at h
        · rename_i hitem
          cases h
          exact List.mem_of_getElem? hitem
        · cases h

/-- The search goes on in a smaller part. -/
theorem sizeOf_lt_of_step {index index' v part : Value} (h : step index v = .ok (.into index' part)) :
    sizeOf part < sizeOf v := by
  unfold step at h
  split at h
  · rename_i rows hrows
    obtain ⟨k, hk⟩ := mem_of_stepInMapping h
    exact Nat.lt_trans (Rows.sizeOf_lt_weight hk) (Value.weight_lt_sizeOf hrows)
  · unfold stepElsewhere at h
    split at h
    · rename_i items _
      cases hitem : itemAt index items with
      | error e => simp [hitem, Except.map] at h
      | ok w =>
        rw [hitem] at h
        cases h
        have hlt := List.sizeOf_lt_of_mem (mem_of_itemAt hitem)
        rw [Value.list.sizeOf_spec]
        omega
    · rename_i items _
      cases hitem : itemAt index items with
      | error e => simp [hitem, Except.map] at h
      | ok w =>
        rw [hitem] at h
        cases h
        have hlt := List.sizeOf_lt_of_mem (mem_of_itemAt hitem)
        rw [Value.tuple.sizeOf_spec]
        omega
    · cases h

/-- The properties of a part of a document, searched level by level. -/
def locate (index v : Value) : Except Error Value :=
  match h : step index v with
  | .error e => .error e
  | .ok (.found properties) => .ok properties
  | .ok (.into index part) =>
    have := sizeOf_lt_of_step h
    locate index part
termination_by sizeOf v

/-- The field types of an index mapping document. -/
def fieldTypes (document index : Value) : Except Error FieldTypes :=
  if document.isMapping then
    match locate index document with
    | .ok properties => (flatten "" properties).mapError .misuse
    | .error e => .error e
  else .error (.indexMappingNotMapping document)

end Mapping

end SearchRequest
