import SearchRequest.Proofs.Accepted
import SearchRequest.Proofs.Dumped
import SearchRequest.Proofs.Registered
/-
How compiling fails. Every failure of a tree or of options has a report, of one of the kinds that
are meant for it: `failures_reported`. It holds of every value as documents and callers hold it. A
set that holds a typed value has no form as plain data, and options with one fail without a report
when they are of the other kind than is asked for: `failure_unreported`.
-/
namespace SearchRequest

/-! ## Values as documents hold them -/

namespace Outline

mutual

/-- Whether every mapping in an outline has texts for keys. -/
def textKeyed : Outline → Bool
  | seq _ items => areTextKeyed items
  | mapping rows => rowsTextKeyed rows
  | record _ fields => fieldsTextKeyed fields
  | _ => true

/-- Whether every mapping in the items has texts for keys. -/
def areTextKeyed : List Outline → Bool
  | [] => true
  | o :: os => o.textKeyed && areTextKeyed os

/-- Whether the keys of rows are texts, and those of every mapping in their values. -/
def rowsTextKeyed : List (Outline × Outline) → Bool
  | [] => true
  | (k, v) :: rows => k.text?.isSome && v.textKeyed && rowsTextKeyed rows

/-- Whether every mapping in the fields has texts for keys. -/
def fieldsTextKeyed : List (Label × Outline) → Bool
  | [] => true
  | (_, o) :: fields => o.textKeyed && fieldsTextKeyed fields

end

end Outline

/-- Whether a value is as documents hold them: the keys of its mappings are texts, and it has a form
as plain data, so that no set in it holds a typed value. -/
def Value.regular (v : Value) : Bool :=
  v.outline.textKeyed && v.dumpable

namespace Value

theorem dumpable_of_mem {xs : List Value} (h : Outline.areDumpable (itemsOutline xs) = true) :
    ∀ v ∈ xs, v.dumpable = true := by
  induction xs with
  | nil => exact List.forall_mem_nil _
  | cons x xs ih =>
    rw [itemsOutline, Outline.areDumpable, Bool.and_eq_true] at h
    exact List.forall_mem_cons.2 ⟨h.1, ih h.2⟩

theorem dumpable_of_mem_entries {es : Entries}
    (h : Outline.rowsDumpable (entriesOutline es) = true) : ∀ e ∈ es, e.2.dumpable = true := by
  induction es with
  | nil => exact List.forall_mem_nil _
  | cons e es ih =>
    obtain ⟨k, v⟩ := e
    rw [entriesOutline, Outline.rowsDumpable, Bool.and_eq_true] at h
    exact List.forall_mem_cons.2 ⟨h.1, ih h.2⟩

/-- The items of a sequence that has a form as plain data have one. -/
theorem dumpable_items {v : Value} (h : v.dumpable = true) {xs : List Value}
    (hv : v = .list xs ∨ v = .tuple xs) : ∀ x ∈ xs, x.dumpable = true := by
  rcases hv with rfl | rfl <;>
  · rw [dumpable, outline, Outline.dumpable, Bool.and_eq_true] at h
    exact dumpable_of_mem h.2

theorem dumpable_entries {es : Entries} (h : (Value.object es).dumpable = true) :
    ∀ e ∈ es, e.2.dumpable = true := by
  rw [dumpable, outline, Outline.dumpable] at h
  exact dumpable_of_mem_entries h

end Value

/-! ## Kinds of failure -/

/-- An error has a report of one of some kinds. -/
def Error.ReportedAs (kinds : List ErrorKind) (e : Error) : Prop :=
  ∃ r, e.report? = some r ∧ r.kind ∈ kinds

theorem Error.ReportedAs.of {kinds : List ErrorKind} {e : Error} (kind : ErrorKind)
    (hkind : kind ∈ kinds) (h : e.report?.map Report.kind = some kind) : e.ReportedAs kinds := by
  obtain ⟨r, hr, hk⟩ := Option.map_eq_some_iff.1 h
  exact ⟨r, hr, hk ▸ hkind⟩

/-- A result satisfies a condition, and a failure is reported as one of some kinds. -/
def Meets {α : Type} (kinds : List ErrorKind) (P : α → Prop) : Except Error α → Prop
  | .ok a => P a
  | .error e => e.ReportedAs kinds

section
variable {α β ω : Type} {kinds : List ErrorKind} {P : α → Prop} {Q : β → Prop}

theorem Meets.reported {x : Except Error α} (h : Meets kinds P x) {e : Error} (he : x = .error e) :
    e.ReportedAs kinds := by
  rw [he] at h
  exact h

theorem meets_map {x : Except Error α} {f : α → β} (h : Meets kinds P x) (hf : ∀ a, P a → Q (f a)) :
    Meets kinds Q (x.map f) := by
  cases x with
  | ok a => exact hf a h
  | error e => exact h

theorem meets_bind [EmptyCollection ω] [Append ω] {x : Outcome ω α} {f : α → Outcome ω β}
    (h : Meets kinds P x.result) (hf : ∀ a, P a → Meets kinds Q (f a).result) :
    Meets kinds Q (x >>= f).result := by
  cases hx : x.result with
  | ok a =>
    rw [Outcome.bind_ok hx]
    rw [hx] at h
    exact hf a h
  | error e =>
    rw [Outcome.bind_error hx]
    rw [hx] at h
    exact h

end

theorem Meets.mono {α : Type} {kinds kinds' : List ErrorKind} {P Q : α → Prop} {x : Except Error α}
    (h : Meets kinds P x) (hk : kinds ⊆ kinds') (hP : ∀ a, P a → Q a) : Meets kinds' Q x := by
  cases x with
  | ok a => exact hP a h
  | error e =>
    obtain ⟨r, hr, hkind⟩ := h
    exact ⟨r, hr, hk hkind⟩

/-! ## Options -/

namespace Options

/-- The kinds of failure that options have. -/
def failureKinds : List ErrorKind :=
  [.unrecognizedOption, .invalidOption]

theorem meets_readEntries (write : Bool) (es : Entries) :
    Meets failureKinds (fun o => o.write.isSome = write) (readEntries write es) := by
  unfold readEntries
  cases h : ofEntries write es with
  | valid o => exact (ofEntries_eq_valid_iff.1 h).isSome_write
  | invalid first more =>
    change (Error.ofOptionFailures first more).ReportedAs failureKinds
    unfold Error.ofOptionFailures
    split
    · exact .of .unrecognizedOption (by decide) rfl
    · exact .of .invalidOption (by decide) rfl

/-- Options of any kind are read, or their failure is reported, when they have a form as plain
data. -/
theorem meets_read (write : Bool) {v : Value} (h : v.dumpable = true) :
    Meets failureKinds (fun o => o.write.isSome = write) (read write v) := by
  unfold read
  split
  · split
    · assumption
    · exact meets_readEntries write _
  · exact meets_readEntries write _
  · exact meets_readEntries write _
  · exact .of .invalidOption (by decide) rfl

theorem meets_sortMapping (field : String) (payload : Entries) :
    Meets failureKinds (fun _ => True) (Sort.ofMapping field payload) := by
  unfold Sort.ofMapping
  split
  · split
    · exact .of .invalidOption (by decide) rfl
    · exact .of .invalidOption (by decide) rfl
    · trivial
  · trivial

theorem meets_sortEntry (allowId : Bool) (field : String) (payload : Value) :
    Meets failureKinds (fun _ => True) (Sort.entry allowId field payload) := by
  unfold Sort.entry
  split
  · trivial
  · split
    · trivial
    · split
      · exact meets_map (meets_sortMapping field _) fun _ _ => trivial
      · exact .of .invalidOption (by decide) rfl

theorem meets_sortEntries (allowId : Bool) (logger : String) (es : Entries) :
    Meets failureKinds (fun _ => True) (Sort.entries allowId logger es).result := by
  induction es with
  | nil => trivial
  | cons e es ih =>
    obtain ⟨field, payload⟩ := e
    unfold Sort.entries
    split
    · rename_i e he
      exact (meets_sortEntry allowId field payload).reported he
    · exact meets_bind ih fun _ _ => trivial
    · exact meets_bind (P := fun _ => True) trivial fun _ _ => ih

theorem meets_compileTyped (env : Environment) (o : Options Value) :
    Meets failureKinds (fun _ => True) (compileTyped env o).result := by
  have hsort : Meets failureKinds (fun _ => True) (compileSort env o.sort).result := by
    cases o.sort with
    | none => trivial
    | some es => exact meets_bind (meets_sortEntries _ _ es) fun _ _ => trivial
  exact meets_bind hsort fun _ _ => meets_bind (P := fun _ => True) trivial fun _ _ => trivial

theorem meets_compile (env : Environment) (write : Bool) {v : Value} (h : v.dumpable = true) :
    Meets failureKinds (fun _ => True) (compile env write v).result :=
  meets_bind (meets_read write h) fun o _ => meets_compileTyped env o

end Options

/-! ## Conditions and trees -/

namespace Where

/-- The kinds of failure that trees have. -/
def failureKinds : List ErrorKind :=
  [.malformedCondition, .unsupportedOperator, .missingKeywordField, .unrecognizedOption,
    .invalidOption]

end Where

namespace Compile

open Where (failureKinds)

theorem meets_bounds (field : String) (op : Operator) (operand : Value) :
    Meets failureKinds (fun _ => True) (bounds field op operand) := by
  unfold bounds
  split
  case h_5 => exact .of .malformedCondition (by decide) rfl
  all_goals trivial

theorem meets_keywordField (env : Environment) (op : Operator) (field : String) :
    Meets failureKinds (fun _ => True) (env.keywordField op field) := by
  unfold Environment.keywordField
  split
  · trivial
  · split
    · trivial
    · split
      · exact .of .missingKeywordField (by decide) rfl
      · trivial

theorem meets_terms (env : Environment) (field : String) (op : Operator) (operand : Value) :
    Meets failureKinds (fun _ => True) (terms env field op operand) := by
  unfold terms
  split
  case h_5 => exact .of .malformedCondition (by decide) rfl
  all_goals exact meets_map (meets_keywordField env op field) fun _ _ => trivial

theorem meets_comparison (env : Environment) (field : String) (op : Operator) (operand : Value) :
    Meets failureKinds (fun _ => True) (comparison env field op operand) := by
  cases op with
  | between | notBetween => exact meets_map (meets_bounds field _ operand) fun _ _ => trivial
  | oneOf | noneOf => exact meets_map (meets_terms env field _ operand) fun _ _ => trivial
  | exact => exact meets_map (meets_keywordField env _ field) fun _ _ => trivial
  | search =>
    cases operand with
    | object parameters => trivial
    | _ => exact .of .malformedCondition (by decide) rfl
  | _ => trivial

theorem meets_multiMatch (scope : Option String) (query : Value) (type : String)
    (fields : List String) (options : Entries) :
    Meets failureKinds (fun _ => True) (multiMatch scope query type fields options) := by
  unfold multiMatch
  split
  · trivial
  · exact .of .unsupportedOperator (by decide) rfl

/-- Options that a nested search can read: those of a request that does not write are taken as they
are, others are read from their plain data. -/
def Readable (o : Options Value) : Prop :=
  o.write = none ∨ (Value.options o).dumpable = true

theorem meets_ofReadable {o : Options Value} (h : Readable o) :
    Meets Options.failureKinds (fun _ => True) (Options.read false (.options o)) := by
  rcases h with hwrite | hdump
  · rw [Options.read_options (by rw [hwrite]; rfl)]
    trivial
  · exact (Options.meets_read false hdump).mono (List.Subset.refl _) fun _ _ => trivial

theorem meets_innerHits (env : Environment) (path : String) {o : Options Value} (h : Readable o)
    (ignoreUnmapped : Bool) :
    Meets failureKinds (fun _ => True) (innerHits env path o ignoreUnmapped).result := by
  have hcompile : Meets Options.failureKinds (fun _ => True)
      (Options.compile env false (.options o)).result :=
    meets_bind (meets_ofReadable h) fun o _ => Options.meets_compileTyped env o
  have hnested : Meets Options.failureKinds (fun _ => True)
      (Options.compileNested env path (.options o)).result :=
    meets_bind hcompile fun _ _ => trivial
  exact meets_bind (hnested.mono (by decide) fun _ h => h) fun _ _ => trivial

mutual

theorem meets_condition (env : Environment) (scope : Option String) :
    ∀ c, (∀ o ∈ Visited.condition c, Readable o) →
      Meets failureKinds (fun _ => True) (condition env scope c).result
  | .is .., _ => trivial
  | .compare field op operand, _ => meets_comparison env (Field.qualify field scope) op operand
  | .multiMatch query type fields options, _ => meets_multiMatch scope query type fields options
  | .group _ wheres, h => meets_bind (meets_tree? env scope wheres h) fun _ _ => trivial
  | .nested _ wheres _ true, h => meets_bind (meets_tree? env none wheres h) fun _ _ => trivial
  | .nested _ wheres _ false, h => meets_bind (meets_tree? env _ wheres h) fun _ _ => trivial
  | .innerNested _ wheres _ _ _, h =>
    meets_bind (meets_innerHits env _ (List.forall_mem_cons.1 h).1 _) fun _ _ =>
      meets_bind (meets_tree? env _ wheres (List.forall_mem_cons.1 h).2) fun _ _ => trivial

theorem meets_tree? (env : Environment) (scope : Option String) :
    ∀ t, (∀ o ∈ Visited.tree? t, Readable o) →
      Meets failureKinds (fun _ => True) (tree? env scope t).result
  | none, _ => trivial
  | some t, h => meets_tree env scope t h

theorem meets_tree (env : Environment) (scope : Option String) :
    ∀ t, (∀ o ∈ Visited.tree t, Readable o) →
      Meets failureKinds (fun _ => True) (tree env scope t).result
  | .all cs, h => meets_bind (meets_conditions env scope cs h) fun _ _ => trivial
  | .any bs, h => meets_bind (meets_branches env scope bs h) fun _ _ => trivial
  | .only c, h => meets_condition env scope c h

theorem meets_conditions (env : Environment) (scope : Option String) :
    ∀ cs, (∀ o ∈ Visited.conditions cs, Readable o) →
      Meets failureKinds (fun _ => True) (conditions env scope cs).result
  | [], _ => trivial
  | c :: cs, h =>
    have ⟨hc, hcs⟩ := List.forall_mem_append.1 h
    meets_bind (meets_condition env scope c hc) fun _ _ =>
      meets_bind (meets_conditions env scope cs hcs) fun _ _ => trivial

theorem meets_branches (env : Environment) (scope : Option String) :
    ∀ bs, (∀ o ∈ Visited.branches bs, Readable o) →
      Meets failureKinds (fun _ => True) (branches env scope bs).result
  | [], _ => trivial
  | b :: bs, h =>
    have ⟨hb, hbs⟩ := List.forall_mem_append.1 h
    meets_bind (meets_conditions env scope b hb) fun _ _ =>
      meets_bind (meets_branches env scope bs hbs) fun _ _ => trivial

end

end Compile

/-! ## Reading -/

namespace Compile

mutual

/-- The options in a typed condition that has a form as plain data have one. -/
theorem readable_condition : ∀ c, (conditionOutline c).dumpable = true →
    ∀ o ∈ Visited.condition c, Readable o
  | .is .., _ | .compare .., _ | .multiMatch .., _ => List.forall_mem_nil _
  | .group _ wheres, h => by
    rw [conditionOutline, Outline.dumpable_plainRecord_iff] at h
    exact readable_tree? wheres (h ("wheres", _) (by simp))
  | .nested _ wheres _ _, h => by
    rw [conditionOutline, Outline.dumpable_plainRecord_iff] at h
    exact readable_tree? wheres (h ("wheres", _) (by simp))
  | .innerNested _ wheres o _ _, h => by
    rw [conditionOutline, Outline.dumpable_plainRecord_iff] at h
    have hoptions : (Value.options o).dumpable = true := h ("options", _) (by simp)
    exact List.forall_mem_cons.2
      ⟨.inr hoptions, readable_tree? wheres (h ("wheres", _) (by simp))⟩

theorem readable_tree? : ∀ t, (optionalTreeOutline t).dumpable = true →
    ∀ o ∈ Visited.tree? t, Readable o
  | none, _ => List.forall_mem_nil _
  | some t, h => readable_tree t h

theorem readable_tree : ∀ t, (treeOutline t).dumpable = true → ∀ o ∈ Visited.tree t, Readable o
  | .all cs, h => by
    rw [treeOutline, Outline.dumpable_plainRecord_iff] at h
    exact readable_conditions cs (Outline.dumpable_list_iff.1 (h _ List.mem_cons_self))
  | .any bs, h => by
    rw [treeOutline, Outline.dumpable_plainRecord_iff] at h
    exact readable_branches bs (Outline.dumpable_list_iff.1 (h _ List.mem_cons_self))
  | .only c, h => by
    rw [treeOutline, Outline.dumpable_plainRecord_iff] at h
    exact readable_condition c (h _ List.mem_cons_self)

theorem readable_conditions : ∀ cs, Outline.areDumpable (conditionsOutline cs) = true →
    ∀ o ∈ Visited.conditions cs, Readable o
  | [], _ => List.forall_mem_nil _
  | c :: cs, h => by
    rw [conditionsOutline, Outline.areDumpable, Bool.and_eq_true] at h
    exact List.forall_mem_append.2 ⟨readable_condition c h.1, readable_conditions cs h.2⟩

theorem readable_branches : ∀ bs, Outline.areDumpable (branchesOutline bs) = true →
    ∀ o ∈ Visited.branches bs, Readable o
  | [], _ => List.forall_mem_nil _
  | b :: bs, h => by
    rw [branchesOutline, Outline.areDumpable, Bool.and_eq_true, Outline.dumpable_list_iff] at h
    exact List.forall_mem_append.2 ⟨readable_conditions b h.1, readable_branches bs h.2⟩

end

end Compile

namespace Parse

open Where (failureKinds)
open Compile (Readable)

theorem meets_payload {α : Type} (field operator : String) (check : Entries → Validated α)
    (es : Entries) :
    Meets failureKinds (fun a => check es = .valid a)
      (Payload.readEntries field operator check es) := by
  unfold Payload.readEntries
  cases h : check es with
  | valid a => rfl
  | invalid first more => exact .of .malformedCondition (by decide) rfl

/-- The options of an operand are null or stand among its entries. -/
theorem dumpable_options {es : Entries} {p : InnerNestedPayload}
    (h : Payload.innerNested es = .valid p) (hes : ∀ e ∈ es, e.2.dumpable = true) :
    p.options.dumpable = true := by
  simp only [Payload.innerNested, Validated.seq_eq_valid_iff, Validated.map_eq_valid_iff] at h
  obtain ⟨_, ⟨_, ⟨_, ⟨_, _, rfl⟩, options, hoptions, rfl⟩, _, _, rfl⟩, _, _, rfl⟩ := h
  rcases Validated.optional_eq_valid_iff.1 hoptions with ⟨-, rfl⟩ | ⟨v, hv, hread⟩
  · rfl
  · cases hread
    exact hes _ (Entries.mem_of_find? hv)

theorem meets_multiMatch (field : String) (v : Value) :
    Meets failureKinds (fun c => ∀ o ∈ Visited.condition c, Readable o)
      (multiMatch field v).result := by
  refine meets_map (P := fun _ => True) ?_ fun _ _ => List.forall_mem_nil _
  cases v with
  | object es =>
    exact (meets_payload field multiMatchField Payload.multiMatch es).mono (List.Subset.refl _)
      fun _ _ => trivial
  | _ => exact .of .malformedCondition (by decide) rfl

mutual

/-- Reading a value that has a form as plain data gives a tree whose options can be read, or a
failure that is reported. -/
theorem meets_tree? (v : Value) (h : v.dumpable = true) :
    Meets failureKinds (fun t => ∀ o ∈ Visited.tree? t, Readable o) (tree? v).result := by
  cases v with
  | tree t =>
    unfold tree?
    exact Compile.readable_tree t (by simpa [Value.dumpable, Value.outline] using h)
  | condition c =>
    unfold tree?
    exact Compile.readable_condition c (by simpa [Value.dumpable, Value.outline] using h)
  | object es =>
    have hes := Value.dumpable_entries h
    match es with
    | [] =>
      unfold tree?
      exact List.forall_mem_nil _
    | (key, v) :: rest =>
      have hv : v.dumpable = true := hes _ List.mem_cons_self
      unfold tree?
      dsimp only
      split
      · split
        · exact meets_bind (meets_entry key v hv) fun _ hc => hc
        · exact .of .malformedCondition (by decide) rfl
      · split
        · exact .of .malformedCondition (by decide) rfl
        · refine meets_bind (P := fun _ => True) trivial fun _ _ => ?_
          split
          · exact meets_bind (meets_conditions key v hv) fun _ hcs => hcs
          · exact meets_bind (meets_branches v hv) fun _ hbs => hbs
  | _ =>
    unfold tree?
    split
    · exact .of .malformedCondition (by decide) rfl
    · exact List.forall_mem_nil _

theorem meets_condition (v : Value) (h : v.dumpable = true) :
    Meets failureKinds (fun c => ∀ o ∈ Visited.condition c, Readable o) (condition v).result := by
  cases v with
  | condition c =>
    unfold condition
    exact Compile.readable_condition c (by simpa [Value.dumpable, Value.outline] using h)
  | object es =>
    have hes := Value.dumpable_entries h
    match es with
    | [(field, operand)] =>
      unfold condition
      exact meets_entry field operand (hes _ List.mem_cons_self)
    | [] | _ :: _ :: _ =>
      unfold condition
      exact .of .malformedCondition (by decide) rfl
  | _ =>
    unfold condition
    exact .of .malformedCondition (by decide) rfl

theorem meets_entry (field : String) (v : Value) (h : v.dumpable = true) :
    Meets failureKinds (fun c => ∀ o ∈ Visited.condition c, Readable o) (entry field v).result := by
  cases v with
  | object es =>
    have hes := Value.dumpable_entries h
    unfold entry
    split
    · exact meets_multiMatch field _
    · match es with
      | [(word, v)] =>
        dsimp only
        split
        · exact meets_underVerb field _ v (hes _ List.mem_cons_self)
        · exact .of .unsupportedOperator (by decide) rfl
      | [] | _ :: _ :: _ => exact .of .malformedCondition (by decide) rfl
  | list | tuple | set =>
    unfold entry
    dsimp only
    split
    · exact meets_multiMatch field _
    · exact .of .malformedCondition (by decide) rfl
  | table rows =>
    unfold entry
    dsimp only
    split
    · exact meets_multiMatch field _
    · match rows with
      | [_] => exact .of .unsupportedOperator (by decide) rfl
      | [] | _ :: _ :: _ => exact .of .malformedCondition (by decide) rfl
  | _ =>
    unfold entry
    dsimp only
    split
    · exact meets_multiMatch field _
    · exact List.forall_mem_nil _

theorem meets_underVerb (field : String) (verb : Verb) (v : Value) (h : v.dumpable = true) :
    Meets failureKinds (fun c => ∀ o ∈ Visited.condition c, Readable o)
      (underVerb field verb v).result := by
  cases v with
  | object es =>
    have hes := Value.dumpable_entries h
    cases verb with
    | compare op =>
      unfold underVerb
      exact List.forall_mem_nil _
    | group =>
      unfold underVerb
      refine meets_bind (meets_payload field _ Payload.group es) fun _ _ => ?_
      split
      · exact .of .malformedCondition (by decide) rfl
      · exact meets_bind (meets_wheres es hes) fun _ ht => ht
    | nested negated =>
      unfold underVerb
      exact meets_bind (meets_payload field _ Payload.nested es) fun _ _ =>
        meets_bind (meets_wheres es hes) fun _ ht => ht
    | innerNested =>
      unfold underVerb
      refine meets_bind (meets_payload field _ Payload.innerNested es) fun p hp => ?_
      refine meets_bind (meets_wheres es hes) fun t ht => ?_
      have hoptions : Meets failureKinds (fun o => o.write.isSome = false)
          (Options.read false p.options) :=
        (Options.meets_read false (dumpable_options hp hes)).mono (by decide) fun _ ho => ho
      refine meets_bind hoptions fun o ho => ?_
      exact List.forall_mem_cons.2 ⟨.inl (by simpa using ho), ht⟩
  | _ =>
    cases verb with
    | compare op =>
      unfold underVerb
      exact List.forall_mem_nil _
    | _ =>
      unfold underVerb
      exact .of .malformedCondition (by decide) rfl

theorem meets_wheres (es : Entries) (h : ∀ e ∈ es, e.2.dumpable = true) :
    Meets failureKinds (fun t => ∀ o ∈ Visited.tree? t, Readable o) (wheres es).result := by
  match es with
  | [] =>
    unfold wheres
    exact List.forall_mem_nil _
  | (key, v) :: rest =>
    have ⟨hv, hrest⟩ := List.forall_mem_cons.1 h
    unfold wheres
    split
    · exact meets_tree? v hv
    · exact meets_wheres rest hrest

theorem meets_conditions (connective : String) (v : Value) (h : v.dumpable = true) :
    Meets failureKinds (fun cs => ∀ o ∈ Visited.conditions cs, Readable o)
      (conditions connective v).result := by
  cases v with
  | list vs =>
    unfold conditions
    exact meets_conditionList vs (Value.dumpable_items h (.inl rfl))
  | tuple vs =>
    unfold conditions
    exact meets_conditionList vs (Value.dumpable_items h (.inr rfl))
  | _ =>
    unfold conditions
    exact .of .malformedCondition (by decide) rfl

theorem meets_conditionList (vs : List Value) (h : ∀ v ∈ vs, v.dumpable = true) :
    Meets failureKinds (fun cs => ∀ o ∈ Visited.conditions cs, Readable o)
      (conditionList vs).result := by
  match vs with
  | [] =>
    unfold conditionList
    exact List.forall_mem_nil _
  | v :: vs =>
    have ⟨hv, hvs⟩ := List.forall_mem_cons.1 h
    unfold conditionList
    exact meets_bind (meets_condition v hv) fun _ hc =>
      meets_bind (meets_conditionList vs hvs) fun _ hcs => List.forall_mem_append.2 ⟨hc, hcs⟩

theorem meets_branches (v : Value) (h : v.dumpable = true) :
    Meets failureKinds (fun bs => ∀ o ∈ Visited.branches bs, Readable o) (branches v).result := by
  cases v with
  | list vs =>
    unfold branches
    exact meets_branchList vs (Value.dumpable_items h (.inl rfl))
  | tuple vs =>
    unfold branches
    exact meets_branchList vs (Value.dumpable_items h (.inr rfl))
  | _ =>
    unfold branches
    exact .of .malformedCondition (by decide) rfl

theorem meets_branchList (vs : List Value) (h : ∀ v ∈ vs, v.dumpable = true) :
    Meets failureKinds (fun bs => ∀ o ∈ Visited.branches bs, Readable o)
      (branchList vs).result := by
  match vs with
  | [] =>
    unfold branchList
    exact List.forall_mem_nil _
  | v :: vs =>
    have ⟨hv, hvs⟩ := List.forall_mem_cons.1 h
    unfold branchList
    exact meets_bind (meets_branch v hv) fun _ hb =>
      meets_bind (meets_branchList vs hvs) fun _ hbs => List.forall_mem_append.2 ⟨hb, hbs⟩

theorem meets_branch (v : Value) (h : v.dumpable = true) :
    Meets failureKinds (fun cs => ∀ o ∈ Visited.conditions cs, Readable o) (branch v).result := by
  cases v with
  | object es =>
    unfold branch
    exact meets_branchEntries es (Value.dumpable_entries h)
  | list vs =>
    unfold branch
    exact meets_conditionList vs (Value.dumpable_items h (.inl rfl))
  | tuple vs =>
    unfold branch
    exact meets_conditionList vs (Value.dumpable_items h (.inr rfl))
  | _ =>
    unfold branch
    exact .of .malformedCondition (by decide) rfl

theorem meets_branchEntries (es : Entries) (h : ∀ e ∈ es, e.2.dumpable = true) :
    Meets failureKinds (fun cs => ∀ o ∈ Visited.conditions cs, Readable o)
      (branchEntries es).result := by
  match es with
  | [] =>
    unfold branchEntries
    exact List.forall_mem_nil _
  | (key, v) :: rest =>
    have ⟨hv, hrest⟩ := List.forall_mem_cons.1 h
    unfold branchEntries
    refine meets_bind (meets_conditions key v hv) fun cs hcs =>
      meets_bind (meets_branchEntries rest hrest) fun more hmore => ?_
    change ∀ o ∈ Visited.conditions (cs ++ more), Readable o
    rw [Visited.conditions_append]
    exact List.forall_mem_append.2 ⟨hcs, hmore⟩

end

end Parse

namespace Where

theorem meets_ofArgument {v : Value} (h : v.dumpable = true) :
    Meets failureKinds (fun t => ∀ o ∈ Visited.tree? t, Compile.Readable o)
      (ofArgument v).result := by
  have hargument : Meets failureKinds (fun v => v.dumpable = true) (argument v) := by
    unfold argument
    split
    · exact h
    · split
      · rfl
      · split
        · exact h
        · exact .of .malformedCondition (by decide) rfl
  exact meets_bind hargument fun v hv => Parse.meets_tree? v hv

theorem meets_compile (env : Environment) (scope : Option String) {v : Value}
    (h : v.dumpable = true) :
    Meets failureKinds (fun _ => True) (compile env scope v).result :=
  meets_bind (x := Compile.ofParsed (ofArgument v)) (meets_ofArgument h) fun t ht =>
    Compile.meets_tree? env scope t ht

end Where

/-! ## All failures -/

/-- No report has the text for a condition of an unknown type. -/
theorem Error.message_ne {e : Error} {r : Report} (h : e.report? = some r) :
    r.message ≠ "Unknown condition type" := by
  cases e with
  | misuse => cases h
  | notTerms field op =>
    cases h
    change op.word ++ " requires a list of values" ≠ _
    cases op <;> decide
  | notConditions connective received =>
    cases h
    -- The message starts with a quote.
    intro hm
    have hchars := congrArg String.toList hm
    simp at hchars
  | _ =>
    cases h
    simp

/-- Compiling returns, or fails with a report of the kinds that are meant for it: for every value
that has texts for keys and a form as plain data, in every scope and environment. -/
theorem failures_reported (env : Environment) {v : Value} (h : v.regular = true) :
    (∀ scope e, (Where.compile env scope v).result = .error e →
      ∃ r, e.report? = some r ∧ r.kind ∈ Where.failureKinds ∧
        r.message ≠ "Unknown condition type") ∧
    (∀ write e, (Options.compile env write v).result = .error e →
      ∃ r, e.report? = some r ∧ r.kind ∈ Options.failureKinds) := by
  obtain ⟨-, hdump⟩ := Bool.and_eq_true_iff.1 h
  constructor
  · intro scope e he
    obtain ⟨r, hr, hkind⟩ := (Where.meets_compile env scope hdump).reported he
    exact ⟨r, hr, hkind, Error.message_ne hr⟩
  · intro write e he
    exact (Options.meets_compile env write hdump).reported he

/-- A mapping with a typed condition fails as a tree, and as options. -/
theorem failures_reported_mixed :
    let v : Value := .object [("and", .list
      [.condition (.is "a" (.set [.int 1])), .object [("b", .object [("exact", .int 1)])]])]
    v.regular = true ∧
    (Where.compile {} none v).result = .error (.missingKeywordField "b" .exact) ∧
    (∃ r, Error.report? (.missingKeywordField "b" .exact) = some r ∧
      r.kind ∈ Where.failureKinds ∧ r.message ≠ "Unknown condition type") ∧
    (Options.compile {} true v).result = .error (.unknownOption "and") ∧
    ∃ r, Error.report? (.unknownOption "and") = some r ∧ r.kind ∈ Options.failureKinds := by
  intro v
  have hregular : v.regular = true := by decide
  have htree : (Where.compile {} none v).result = .error (.missingKeywordField "b" .exact) := rfl
  have hoptions : (Options.compile {} true v).result = .error (.unknownOption "and") := rfl
  exact ⟨hregular, htree, (failures_reported {} hregular).1 none _ htree, hoptions,
    (failures_reported {} hregular).2 true _ hoptions⟩

/-- Options of the other kind with a typed value in a set have no form as plain data, and fail
without a report, at the top and in a nested search. -/
theorem failure_unreported :
    let o : Options Value :=
      { prevSearchAfter := some (.set [.condition (.is "a" (.int 1))]), write := some ⟨none⟩ }
    let w : Value := .object [("comments", .object [("innerNested", .object
      [("score_mode", .str "avg"), ("options", .options o)])])]
    (Options.compile {} false (.options o)).result = .error (.misuse .kind) ∧
    (Where.compile {} none w).result = .error (.misuse .kind) ∧
    Error.report? (.misuse .kind) = none := by
  exact ⟨rfl, rfl, rfl⟩

end SearchRequest
