import Mathlib.Data.List.Forall2
import SearchRequest.Proofs.Accepted
import SearchRequest.Proofs.Outcome
import SearchRequest.Where.Parse
/-
The grammar of filter trees, as a relation between values and what they are read as, and the proof
that the reader accepts exactly it: `Where.parse_ok_iff`. The relation says which values are trees
and why, without the order in which the reader looks and without its failures.

The mappings of the grammar are those of documents: their keys are texts.
-/
namespace SearchRequest

namespace Grammar

/-- A text stands under a key, or the bytes of one. -/
def HoldsText (es : Entries) (key text : String) : Prop :=
  ∃ v, Entries.find? key es = some v ∧ Validate.string v = .valid text

/-- The entries are those of an operand of a search in several fields. -/
structure IsMultiMatch (es : Entries) (query : Value) (type : String) (fields : List String)
    (options : Option Entries) : Prop where
  query : Entries.find? "query" es = some query
  type : HoldsText es "type" type
  fields : ∃ v, Entries.find? "fields" es = some v ∧ Validate.strings v = .valid fields
  /-- The options are a mapping, or null or absent. -/
  options : Validate.nullable Validate.mapping ((Entries.find? "options" es).getD .null) =
    .valid options

mutual

/-- A value is a tree, or stands for the absence of one. -/
inductive IsTree : Value → Option Where → Prop
  /-- What counts as absent is no tree. -/
  | absent {v : Value} (h : v.truthy = false) : IsTree v none
  | typed (t : Where) : IsTree (.tree t) (some t)
  | typedCondition (c : Condition) : IsTree (.condition c) (some (.only c))
  /-- `and` comes first. What stands under the keys behind it does not matter. -/
  | all {v : Value} {rest : Entries} {cs : List Condition}
      (hrest : ∀ key ∈ Entries.keys rest, key = "and" ∨ key = "or") (h : AreConditions v cs) :
      IsTree (.object (("and", v) :: rest)) (some (.all cs))
  /-- `or` comes first. -/
  | any {v : Value} {vs : List Value} {rest : Entries} {bs : List (List Condition)}
      (hrest : ∀ key ∈ Entries.keys rest, key = "and" ∨ key = "or")
      (hv : v = .list vs ∨ v = .tuple vs) (h : List.Forall₂ IsBranch vs bs) :
      IsTree (.object (("or", v) :: rest)) (some (.any bs))
  | only {field : String} {operand : Value} {c : Condition} (hand : field ≠ "and")
      (hor : field ≠ "or") (h : IsCondition (.object [(field, operand)]) c) :
      IsTree (.object [(field, operand)]) (some (.only c))

/-- A value is a condition. -/
inductive IsCondition : Value → Condition → Prop
  | typed (c : Condition) : IsCondition (.condition c) c
  | multiMatch {es : Entries} {query : Value} {type : String} {fields : List String}
      {options : Option Entries} (h : IsMultiMatch es query type fields options) :
      IsCondition (.object [(multiMatchField, .object es)])
        (.multiMatch query type fields (options.getD []))
  /-- An operand without an operator is neither a mapping nor a list, a tuple or a set. -/
  | is {field : String} {v : Value} (hfield : field ≠ multiMatchField) (hmap : v.isMapping = false)
      (hseq : ∀ vs, v ≠ .list vs ∧ v ≠ .tuple vs ∧ v ≠ .set vs) :
      IsCondition (.object [(field, v)]) (.is field v)
  | operator {field word : String} {verb : Verb} {v : Value} {c : Condition}
      (hfield : field ≠ multiMatchField) (hword : verb.word = word) (h : IsOperand field verb v c) :
      IsCondition (.object [(field, .object [(word, v)])]) c

/-- A value is an operand of a verb under a field, and the condition that they make together. -/
inductive IsOperand : String → Verb → Value → Condition → Prop
  | compare (field : String) (op : Operator) (v : Value) :
      IsOperand field (.compare op) v (.compare field op v)
  | group {field : String} {clause : Clause} {es : Entries} {w : Value} {t : Option Where}
      (hfield : clause.word = field) (hw : Entries.find? wheresKey es = some w) (ht : IsTree w t) :
      IsOperand field .group (.object es) (.group clause t)
  | nested {field mode : String} {negated : Bool} {es : Entries} {w : Value} {t : Option Where}
      (hw : Entries.find? wheresKey es = some w) (ht : IsTree w t)
      (hmode : HoldsText es "score_mode" mode) :
      IsOperand field (.nested negated) (.object es) (.nested field t mode negated)
  /-- Only here may the sub-tree be absent. The options are those of a request that does not
  write. -/
  | innerNested {field mode : String} {ignore : Bool} {es : Entries} {t : Option Where}
      {o : Options Value} (ht : IsTree ((Entries.find? wheresKey es).getD .null) t)
      (ho : Options.read false ((Entries.find? "options" es).getD .null) = .ok o)
      (hmode : HoldsText es "score_mode" mode)
      (hignore : Validate.boolean ((Entries.find? "ignore_unmapped" es).getD (.bool false)) =
        .valid ignore) :
      IsOperand field .innerNested (.object es) (.innerNested field t o mode ignore)

/-- A value is a list of conditions. -/
inductive AreConditions : Value → List Condition → Prop
  | list {vs : List Value} {cs : List Condition} (h : List.Forall₂ IsCondition vs cs) :
      AreConditions (.list vs) cs
  | tuple {vs : List Value} {cs : List Condition} (h : List.Forall₂ IsCondition vs cs) :
      AreConditions (.tuple vs) cs

/-- A value is a branch of conditions. -/
inductive IsBranch : Value → List Condition → Prop
  | bare {v : Value} {cs : List Condition} (h : AreConditions v cs) : IsBranch v cs
  /-- The lists under all keys, whatever these are, one after the other. -/
  | keyed {es : Entries} {css : List (List Condition)}
      (h : List.Forall₂ AreConditions (es.map (·.2)) css) : IsBranch (.object es) css.flatten

end

/-! ## Operands that are mappings -/

theorem readEntries_eq_ok_iff {α : Type} {field operator : String} {check : Entries → Validated α}
    {es : Entries} {a : α} :
    Payload.readEntries field operator check es = .ok a ↔ check es = .valid a := by
  unfold Payload.readEntries
  cases check es <;> simp

theorem group_eq_valid_iff {es : Entries} {p : GroupPayload} :
    Payload.group es = .valid p ↔ Entries.find? wheresKey es = some p.wheres := by
  simp only [Payload.group, Validated.map_eq_valid_iff, Validated.required_eq_valid_iff,
    Validate.any]
  constructor
  · rintro ⟨_, ⟨w, hw, ⟨⟩⟩, rfl⟩
    exact hw
  · intro hw
    exact ⟨p.wheres, ⟨p.wheres, hw, rfl⟩, rfl⟩

theorem nested_eq_valid_iff {es : Entries} {p : NestedPayload} :
    Payload.nested es = .valid p ↔
      Entries.find? wheresKey es = some p.wheres ∧ HoldsText es "score_mode" p.scoreMode := by
  simp only [Payload.nested, Validated.seq_eq_valid_iff, Validated.map_eq_valid_iff,
    Validated.required_eq_valid_iff, Validate.any]
  constructor
  · rintro ⟨_, ⟨_, ⟨w, hw, ⟨⟩⟩, rfl⟩, _, hmode, rfl⟩
    exact ⟨hw, hmode⟩
  · rintro ⟨hw, hmode⟩
    exact ⟨_, ⟨p.wheres, ⟨p.wheres, hw, rfl⟩, rfl⟩, p.scoreMode, hmode, rfl⟩

/-- An optional key reads as one that is always there, when what is read for an absent one is what
some value is read as. -/
theorem optional_eq_valid_getD_iff {β : Type} {es : Entries} {key : String} {absent : Value}
    {default b : β} {check : Value → Validated β} (h : check absent = .valid default) :
    Validated.optional es key default check = .valid b ↔
      check ((Entries.find? key es).getD absent) = .valid b := by
  cases hfind : Entries.find? key es with
  | none => simp [Validated.optional, hfind, h]
  | some v => simp [Validated.optional, hfind, Validated.under_eq_valid_iff]

theorem innerNested_eq_valid_iff {es : Entries} {p : InnerNestedPayload} :
    Payload.innerNested es = .valid p ↔
      (Entries.find? wheresKey es).getD .null = p.wheres ∧
      (Entries.find? "options" es).getD .null = p.options ∧
      HoldsText es "score_mode" p.scoreMode ∧
      Validate.boolean ((Entries.find? "ignore_unmapped" es).getD (.bool false)) =
        .valid p.ignoreUnmapped := by
  have hnull : Validate.any .null = .valid .null := rfl
  have hflag : Validate.boolean (.bool false) = .valid false := rfl
  simp only [Payload.innerNested, Validated.seq_eq_valid_iff, Validated.map_eq_valid_iff,
    Validated.required_eq_valid_iff, optional_eq_valid_getD_iff hnull,
    optional_eq_valid_getD_iff hflag]
  constructor
  · rintro ⟨_, ⟨_, ⟨_, ⟨w, ⟨⟩, rfl⟩, o, ⟨⟩, rfl⟩, _, hmode, rfl⟩, _, hignore, rfl⟩
    exact ⟨rfl, rfl, hmode, hignore⟩
  · rintro ⟨hw, ho, hmode, hignore⟩
    exact ⟨_, ⟨_, ⟨_, ⟨_, rfl, rfl⟩, _, rfl, rfl⟩, _, hmode, rfl⟩, _, hignore, by rw [hw, ho]⟩

theorem multiMatch_eq_valid_iff {es : Entries} {p : MultiMatchPayload} :
    Payload.multiMatch es = .valid p ↔ IsMultiMatch es p.query p.type p.fields p.options := by
  have hnull : Validate.nullable Validate.mapping .null = .valid none := rfl
  simp only [Payload.multiMatch, Validated.seq_eq_valid_iff, Validated.map_eq_valid_iff,
    Validated.required_eq_valid_iff, optional_eq_valid_getD_iff hnull]
  constructor
  · rintro ⟨_, ⟨_, ⟨_, ⟨q, ⟨_, hq, ⟨⟩⟩, rfl⟩, _, htype, rfl⟩, _, hfields, rfl⟩, _, hoptions, rfl⟩
    exact ⟨hq, htype, hfields, hoptions⟩
  · intro h
    exact ⟨_, ⟨_, ⟨_, ⟨_, ⟨_, h.query, rfl⟩, rfl⟩, _, h.type, rfl⟩, _, h.fields, rfl⟩, _, h.options,
      rfl⟩

/-! ## Trees that are mappings -/

theorem isTree_object_iff {key : String} {v : Value} {rest : Entries} {t : Option Where} :
    IsTree (.object ((key, v) :: rest)) t ↔
      ((∀ k ∈ Entries.keys rest, k = "and" ∨ k = "or") ∧
        ((key = "and" ∧ ∃ cs, AreConditions v cs ∧ some (.all cs) = t) ∨
          (key = "or" ∧
            ∃ bs, (∃ vs, (v = .list vs ∨ v = .tuple vs) ∧ List.Forall₂ IsBranch vs bs) ∧
              some (.any bs) = t))) ∨
      (¬ (key = "and" ∨ key = "or") ∧ rest = [] ∧
        ∃ c, IsCondition (.object [(key, v)]) c ∧ some (.only c) = t) := by
  constructor
  · intro h
    cases h with
    | absent h => cases h
    | all hrest h => exact .inl ⟨hrest, .inl ⟨rfl, _, h, rfl⟩⟩
    | any hrest hv h => exact .inl ⟨hrest, .inr ⟨rfl, _, ⟨_, hv, h⟩, rfl⟩⟩
    | only hand hor h => exact .inr ⟨not_or.2 ⟨hand, hor⟩, rfl, _, h, rfl⟩
  · rintro (⟨hrest, ⟨rfl, cs, h, rfl⟩ | ⟨rfl, bs, ⟨vs, hv, h⟩, rfl⟩⟩ | ⟨hkey, rfl, c, h, rfl⟩)
    · exact .all hrest h
    · exact .any hrest hv h
    · exact .only (not_or.1 hkey).1 (not_or.1 hkey).2 h

end Grammar

namespace Parse

open Grammar

theorem isConnective_iff {key : String} : isConnective key = true ↔ key = "and" ∨ key = "or" := by
  simp [isConnective, connectives]

theorem all_isConnective_iff {keys : List String} :
    keys.all isConnective = true ↔ ∀ key ∈ keys, key = "and" ∨ key = "or" := by
  simp only [List.all_eq_true, isConnective_iff]

theorem multiMatch_ok_iff {v : Value} {c : Condition} :
    (multiMatch multiMatchField v).result = .ok c ↔
      IsCondition (.object [(multiMatchField, v)]) c := by
  simp only [multiMatch, Outcome.result_ofExcept, map_ok_iff]
  constructor
  · rintro ⟨p, hp, rfl⟩
    cases v with
    | object es => exact .multiMatch (multiMatch_eq_valid_iff.1 (readEntries_eq_ok_iff.1 hp))
    | _ => cases hp
  · intro h
    cases h with
    | multiMatch h =>
      exact ⟨⟨_, _, _, _⟩, readEntries_eq_ok_iff.2 (multiMatch_eq_valid_iff.2 h), rfl⟩
    | is hfield | operator hfield => exact absurd rfl hfield

theorem result_pure_iff {α : Type} {a b : α} : (pure a : Parsed α).result = .ok b ↔ a = b := by
  simp

-- One theorem for each function of the reader, by recursion on the value that it reads. The arms
-- are those of the function; in each one the constructors that could make the value are compared.
mutual

/-- A value is read as the tree that it is. -/
theorem tree?_ok_iff (v : Value) (t : Option Where) : (tree? v).result = .ok t ↔ IsTree v t := by
  cases v with
  | tree t' =>
    unfold tree?
    constructor
    · rintro ⟨⟩
      exact .typed t'
    · intro h
      cases h with
      | typed => rfl
      | absent h => cases h
  | condition c =>
    unfold tree?
    constructor
    · rintro ⟨⟩
      exact .typedCondition c
    · intro h
      cases h with
      | typedCondition => rfl
      | absent h => cases h
  | object es =>
    match es with
    | [] =>
      unfold tree?
      constructor
      · rintro ⟨⟩
        exact .absent rfl
      · intro h
        cases h with
        | absent => rfl
    | (key, v) :: rest =>
      unfold tree?
      dsimp only
      rw [isTree_object_iff]
      split
      -- No connective among the keys: the mapping has to be a single condition.
      case isTrue hnone =>
        have hkey : ¬ (key = "and" ∨ key = "or") := fun h => by
          simp [isConnective_iff.2 h] at hnone
        obtain ⟨hand, hor⟩ := not_or.1 hkey
        match rest with
        | [] => simp [Outcome.result_bind_ok_iff, entry_ok_iff key v, hand, hor]
        | _ :: _ => simp [hand, hor]
      case isFalse hsome =>
        split
        case isTrue hmixed =>
          refine ⟨(nomatch ·), ?_⟩
          rintro (⟨hrest, hkey⟩ | ⟨hkey, rfl, -⟩)
          · have hall := all_isConnective_iff.2
              (List.forall_mem_cons.2 ⟨hkey.imp (·.1) (·.1), hrest⟩)
            rw [hall] at hmixed
            cases hmixed
          · have hnot : isConnective key = false := Bool.eq_false_iff.2 (mt isConnective_iff.1 hkey)
            simp [Entries.keys, hnot] at hsome
        -- Connectives only: the first key decides, and the warning about a second one is an effect.
        case isFalse hall =>
          have hconnectives : ∀ k ∈ key :: Entries.keys rest, k = "and" ∨ k = "or" :=
            all_isConnective_iff.1 (by simpa using hall)
          obtain ⟨hkey, hrest⟩ := List.forall_mem_cons.1 hconnectives
          rw [Outcome.bind_ok (Outcome.result_perform _), and_iff_right hrest]
          rcases hkey with rfl | rfl
          · simp [Outcome.result_bind_ok_iff, conditions_ok_iff "and" v]
          · simp [Outcome.result_bind_ok_iff, branches_ok_iff v]
  | _ =>
    unfold tree?
    split
    case isTrue htruthy =>
      refine ⟨(nomatch ·), fun h => ?_⟩
      cases h with
      | absent hfalsy => cases hfalsy.symm.trans htruthy
    case isFalse hfalsy =>
      constructor
      · rintro ⟨⟩
        exact .absent (Bool.eq_false_iff.2 hfalsy)
      · intro h
        cases h with
        | absent => rfl
termination_by structural v

/-- A value is read as the condition that it is. -/
theorem condition_ok_iff (v : Value) (c : Condition) :
    (condition v).result = .ok c ↔ IsCondition v c := by
  cases v with
  | condition c' =>
    unfold condition
    constructor
    · rintro ⟨⟩
      exact .typed _
    · intro h
      cases h with
      | typed => rfl
  | object es =>
    match es with
    | [(field, operand)] =>
      unfold condition
      exact entry_ok_iff field operand c
    | [] | _ :: _ :: _ =>
      unfold condition
      exact ⟨(nomatch ·), (nomatch ·)⟩
  | _ =>
    unfold condition
    exact ⟨(nomatch ·), (nomatch ·)⟩
termination_by structural v

theorem entry_ok_iff (field : String) (v : Value) (c : Condition) :
    (entry field v).result = .ok c ↔ IsCondition (.object [(field, v)]) c := by
  by_cases hfield : field = multiMatchField
  · subst hfield
    rw [← multiMatch_ok_iff]
    cases v <;> simp [entry]
  · cases v with
    | object es =>
      match es with
      | [(word, v)] =>
        unfold entry
        rw [if_neg hfield]
        dsimp only
        cases hword : Verb.ofWord? word with
        | none =>
          refine ⟨(nomatch ·), fun h => ?_⟩
          cases h with
          | multiMatch => exact absurd rfl hfield
          | is _ hmap => cases hmap
          | operator _ hverb =>
            rw [← hverb, Verb.ofWord?_word] at hword
            cases hword
        | some verb =>
          rw [underVerb_ok_iff field verb v c]
          constructor
          · intro h
            exact .operator hfield (Verb.word_of_ofWord? hword) h
          · intro h
            cases h with
            | multiMatch => exact absurd rfl hfield
            | is _ hmap => cases hmap
            | operator _ hverb h =>
              rw [← hverb, Verb.ofWord?_word] at hword
              cases hword
              exact h
      | [] | _ :: _ :: _ =>
        unfold entry
        rw [if_neg hfield]
        refine ⟨(nomatch ·), fun h => ?_⟩
        cases h with
        | multiMatch => exact absurd rfl hfield
        | is _ hmap => cases hmap
    | table rows =>
      unfold entry
      dsimp only
      rw [if_neg hfield]
      refine ⟨(nomatch ·), fun h => ?_⟩
      cases h with
      | is _ hmap => cases hmap
    | list vs | tuple vs | set vs =>
      unfold entry
      dsimp only
      rw [if_neg hfield]
      refine ⟨(nomatch ·), fun h => ?_⟩
      cases h with
      | is _ _ hseq => simp at hseq
    | _ =>
      unfold entry
      dsimp only
      rw [if_neg hfield]
      constructor
      · rintro ⟨⟩
        exact .is hfield rfl (by simp)
      · intro h
        cases h with
        | is => rfl
termination_by structural v

theorem underVerb_ok_iff (field : String) (verb : Verb) (v : Value) (c : Condition) :
    (underVerb field verb v).result = .ok c ↔ IsOperand field verb v c := by
  cases verb with
  | compare op =>
    unfold underVerb
    constructor
    · rintro ⟨⟩
      exact .compare field op v
    · intro h
      cases h with
      | compare => rfl
  | group =>
    cases v with
    | object es =>
      unfold underVerb
      simp only [Outcome.result_bind_ok_iff, Outcome.result_ofExcept, readEntries_eq_ok_iff,
        group_eq_valid_iff]
      constructor
      · rintro ⟨p, hw, h⟩
        split at h
        · cases h
        · rename_i clause hclause
          obtain ⟨t, ht, ⟨⟩⟩ := Outcome.result_bind_ok_iff.1 h
          rw [wheres_ok_iff es t, hw] at ht
          exact .group (Clause.word_of_ofWord? hclause) hw ht
      · intro h
        cases h with
        | @group _ clause _ w t hfield hw ht =>
          refine ⟨⟨w⟩, hw, ?_⟩
          rw [← hfield, Clause.ofWord?_word]
          have ht' : (wheres es).result = .ok t := by
            rw [wheres_ok_iff es t, hw]
            exact ht
          exact Outcome.result_bind_ok_iff.2 ⟨t, ht', rfl⟩
    | _ =>
      unfold underVerb
      exact ⟨(nomatch ·), (nomatch ·)⟩
  | nested negated =>
    cases v with
    | object es =>
      unfold underVerb
      simp only [Outcome.result_bind_ok_iff, Outcome.result_ofExcept, readEntries_eq_ok_iff,
        nested_eq_valid_iff, wheres_ok_iff es, result_pure_iff]
      constructor
      · rintro ⟨p, ⟨hw, hmode⟩, t, ht, rfl⟩
        rw [hw] at ht
        exact .nested hw ht hmode
      · intro h
        cases h with
        | @nested _ mode _ _ w t hw ht hmode =>
          exact ⟨⟨w, mode⟩, ⟨hw, hmode⟩, t, by rwa [hw], rfl⟩
    | _ =>
      unfold underVerb
      exact ⟨(nomatch ·), (nomatch ·)⟩
  | innerNested =>
    cases v with
    | object es =>
      unfold underVerb
      simp only [Outcome.result_bind_ok_iff, Outcome.result_ofExcept, readEntries_eq_ok_iff,
        innerNested_eq_valid_iff, wheres_ok_iff es, result_pure_iff]
      constructor
      · rintro ⟨p, ⟨-, ho, hmode, hignore⟩, t, ht, o, hread, rfl⟩
        exact .innerNested ht (ho ▸ hread) hmode hignore
      · intro h
        cases h with
        | @innerNested _ mode ignore _ t o ht ho hmode hignore =>
          exact ⟨⟨_, _, mode, ignore⟩, ⟨rfl, rfl, hmode, hignore⟩, t, ht, o, ho, rfl⟩
    | _ =>
      unfold underVerb
      exact ⟨(nomatch ·), (nomatch ·)⟩
termination_by structural v

theorem wheres_ok_iff (es : Entries) (t : Option Where) :
    (wheres es).result = .ok t ↔ IsTree ((Entries.find? wheresKey es).getD .null) t := by
  match es with
  | [] =>
    unfold wheres
    constructor
    · rintro ⟨⟩
      exact .absent rfl
    · intro h
      cases h with
      | absent => rfl
  | (key, v) :: rest =>
    unfold wheres
    rw [Entries.find?]
    split
    · exact tree?_ok_iff v t
    · exact wheres_ok_iff rest t
termination_by structural es

theorem conditions_ok_iff (connective : String) (v : Value) (cs : List Condition) :
    (conditions connective v).result = .ok cs ↔ AreConditions v cs := by
  cases v with
  | list vs =>
    unfold conditions
    rw [conditionList_ok_iff vs cs]
    exact ⟨.list, fun | .list h => h⟩
  | tuple vs =>
    unfold conditions
    rw [conditionList_ok_iff vs cs]
    exact ⟨.tuple, fun | .tuple h => h⟩
  | _ =>
    unfold conditions
    exact ⟨(nomatch ·), (nomatch ·)⟩
termination_by structural v

theorem conditionList_ok_iff (vs : List Value) (cs : List Condition) :
    (conditionList vs).result = .ok cs ↔ List.Forall₂ IsCondition vs cs := by
  match vs with
  | [] =>
    unfold conditionList
    rw [List.forall₂_nil_left_iff]
    exact ⟨fun | rfl => rfl, fun | rfl => rfl⟩
  | v :: vs =>
    unfold conditionList
    simp only [Outcome.result_bind_ok_iff, result_pure_iff, condition_ok_iff v,
      conditionList_ok_iff vs, List.forall₂_cons_left_iff]
    constructor
    · rintro ⟨c, hc, cs, hcs, rfl⟩
      exact ⟨c, cs, hc, hcs, rfl⟩
    · rintro ⟨c, cs, hc, hcs, rfl⟩
      exact ⟨c, hc, cs, hcs, rfl⟩
termination_by structural vs

theorem branches_ok_iff (v : Value) (bs : List (List Condition)) :
    (branches v).result = .ok bs ↔
      ∃ vs, (v = .list vs ∨ v = .tuple vs) ∧ List.Forall₂ IsBranch vs bs := by
  cases v with
  | list vs =>
    unfold branches
    simp [branchList_ok_iff vs bs]
  | tuple vs =>
    unfold branches
    simp [branchList_ok_iff vs bs]
  | _ =>
    unfold branches
    simp
termination_by structural v

theorem branchList_ok_iff (vs : List Value) (bs : List (List Condition)) :
    (branchList vs).result = .ok bs ↔ List.Forall₂ IsBranch vs bs := by
  match vs with
  | [] =>
    unfold branchList
    rw [List.forall₂_nil_left_iff]
    exact ⟨fun | rfl => rfl, fun | rfl => rfl⟩
  | v :: vs =>
    unfold branchList
    simp only [Outcome.result_bind_ok_iff, result_pure_iff, branch_ok_iff v, branchList_ok_iff vs,
      List.forall₂_cons_left_iff]
    constructor
    · rintro ⟨b, hb, bs, hbs, rfl⟩
      exact ⟨b, bs, hb, hbs, rfl⟩
    · rintro ⟨b, bs, hb, hbs, rfl⟩
      exact ⟨b, hb, bs, hbs, rfl⟩
termination_by structural vs

theorem branch_ok_iff (v : Value) (cs : List Condition) :
    (branch v).result = .ok cs ↔ IsBranch v cs := by
  cases v with
  | object es =>
    unfold branch
    rw [branchEntries_ok_iff es cs]
    constructor
    · rintro ⟨css, h, rfl⟩
      exact .keyed h
    · intro h
      cases h with
      | bare h => nomatch h
      | keyed h => exact ⟨_, h, rfl⟩
  | list vs =>
    unfold branch
    rw [conditionList_ok_iff vs cs]
    exact ⟨fun h => .bare (.list h), fun | .bare (.list h) => h⟩
  | tuple vs =>
    unfold branch
    rw [conditionList_ok_iff vs cs]
    exact ⟨fun h => .bare (.tuple h), fun | .bare (.tuple h) => h⟩
  | _ =>
    unfold branch
    refine ⟨(nomatch ·), fun h => ?_⟩
    cases h with
    | bare h => nomatch h
termination_by structural v

theorem branchEntries_ok_iff (es : Entries) (cs : List Condition) :
    (branchEntries es).result = .ok cs ↔
      ∃ css, List.Forall₂ AreConditions (es.map (·.2)) css ∧ css.flatten = cs := by
  match es with
  | [] =>
    unfold branchEntries
    simp
  | (key, v) :: rest =>
    unfold branchEntries
    simp only [Outcome.result_bind_ok_iff, result_pure_iff, conditions_ok_iff key v,
      branchEntries_ok_iff rest, List.map_cons, List.forall₂_cons_left_iff]
    constructor
    · rintro ⟨cs, hcs, _, ⟨css, hcss, rfl⟩, rfl⟩
      exact ⟨cs :: css, ⟨cs, css, hcs, hcss, rfl⟩, rfl⟩
    · rintro ⟨_, ⟨cs, css, hcs, hcss, rfl⟩, rfl⟩
      exact ⟨cs, hcs, css.flatten, ⟨css, hcss, rfl⟩, rfl⟩
termination_by structural es

end

end Parse

/-- A value is at most one tree. -/
theorem Grammar.IsTree.unique {v : Value} {t t' : Option Where} (h : IsTree v t)
    (h' : IsTree v t') : t = t' := by
  rw [← Parse.tree?_ok_iff] at h h'
  exact Except.ok.inj (h.symm.trans h')

example : (Where.parse (.object [("or", .list [.object []]), ("and", .int 5)])).result =
    .ok (some (.any [[]])) := rfl

end SearchRequest
