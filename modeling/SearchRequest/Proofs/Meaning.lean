import SearchRequest.Proofs.Compile
import SearchRequest.Proofs.Engine
/-
What filter trees mean, said without the compiler, and the proof that the compiler keeps it: when a
tree compiles, its query document holds of a document exactly when the tree does
(`Where.holds_compile_iff`).

A leaf condition means the leaf fragment it asserts, or the contrary for the operators that deny.
The fields of a leaf are read in the scope the condition stands in: a nested condition opens the
scope of its own path, a negated one returns to the root.
-/
namespace SearchRequest

/-- The members of a sequence of any kind. -/
def Value.members? : Value → Option (List Value)
  | list vs | tuple vs | set vs | frozenset vs => some vs
  | _ => none

/-- Whether an operator denies what it compares. -/
def Operator.denies : Operator → Bool
  | notBetween | absent | differs | noneOf => true
  | _ => false

/-- The leaf that a comparison asserts or denies; none when the operand has the wrong shape or no
field can be compared exactly. -/
def Environment.leafOf? (env : Environment) (field : String) (op : Operator) (operand : Value) :
    Option Leaf :=
  match op with
  | .lt | .lte | .gt | .gte => some (.range field [(op.word, operand)])
  | .between | .notBetween =>
    match operand.members? with
    | some [low, high] => some (.range field [("gte", low), ("lte", high)])
    | _ => none
  | .search =>
    match operand with
    | .object parameters => some (.queryString parameters)
    | _ => none
  | .like => some (.queryString [("query", .str (QueryText.contains field operand.asText))])
  | .notLike => some (.queryString [("query", .str (QueryText.lacks field operand.asText))])
  | .regex => some (.regexp field operand)
  | .present | .absent => some (.present field)
  | .differs => some (.fullText field operand)
  | .oneOf | .noneOf =>
    operand.members?.bind fun vs => (env.keywordField op field).toOption.map (.terms · vs)
  | .exact => (env.keywordField op field).toOption.map (.term · operand)
  | .phrase => some (.phrase field operand)
  | .phraseStart => some (.phraseStart field operand)

namespace Engine

variable {Doc : Type} (E : Engine Doc) (env : Environment)

/-- A comparison of a field holds of a document. -/
def ComparisonHolds (field : String) (op : Operator) (operand : Value) (d : Doc) : Prop :=
  ∃ l, env.leafOf? field op operand = some l ∧
    if op.denies then ¬ E.leaf l.toValue d else E.leaf l.toValue d

mutual

/-- A condition in a scope holds of a document. -/
def ConditionHolds (scope : Option String) : Condition → Doc → Prop
  | .is field v => E.leaf (Leaf.fullText (Field.qualify field scope) v).toValue
  | .compare field op operand => E.ComparisonHolds env (Field.qualify field scope) op operand
  | .multiMatch query type fields options =>
    E.leaf (Leaf.multiMatch (Entries.overlay
      [("query", query), ("type", .str type), ("fields", .ofStrings fields)] options)).toValue
  | .group clause wheres => fun d =>
    if clause = .mustNot then ¬ TreeHolds scope wheres d else TreeHolds scope wheres d
  | .nested path wheres _ negated => fun d =>
    let path := Field.qualify path scope
    if negated then ¬ ∃ c, E.child path d c ∧ TreeHolds none wheres c
    else ∃ c, E.child path d c ∧ TreeHolds (some path) wheres c
  | .innerNested path wheres _ _ _ => fun d =>
    let path := Field.qualify path scope
    ∃ c, E.child path d c ∧ TreeHolds (some path) wheres c

/-- A tree that may be absent holds of a document; the absent tree holds of all. -/
def TreeHolds (scope : Option String) : Option Where → Doc → Prop
  | none => fun _ => True
  | some t => WhereHolds scope t

/-- A tree holds of a document. Branches without conditions count only when there are no others. -/
def WhereHolds (scope : Option String) : Where → Doc → Prop
  | .all cs => AllHold scope cs
  | .any bs => fun d => (∀ b ∈ bs, b = []) ∨ SomeHolds scope bs d
  | .only c => ConditionHolds scope c

/-- All conditions of a list hold of a document. -/
def AllHold (scope : Option String) : List Condition → Doc → Prop
  | [] => fun _ => True
  | c :: cs => fun d => ConditionHolds scope c d ∧ AllHold scope cs d

/-- All conditions of some branch that has any hold of a document. -/
def SomeHolds (scope : Option String) : List (List Condition) → Doc → Prop
  | [] => fun _ => False
  | b :: bs => fun d => (b ≠ [] ∧ AllHold scope b d) ∨ SomeHolds scope bs d

end

end Engine

/-! ## Leaves -/

namespace Compile

theorem bounds_eq_ok {field : String} {op : Operator} {operand : Value} {l : Leaf}
    (h : bounds field op operand = .ok l) :
    ∃ low high, operand.members? = some [low, high] ∧
      l = .range field [("gte", low), ("lte", high)] := by
  unfold bounds at h
  split at h
  case h_5 => cases h
  all_goals
    injection h with h
    exact ⟨_, _, rfl, h.symm⟩

theorem terms_eq_ok {env : Environment} {field : String} {op : Operator} {operand : Value} {l : Leaf}
    (h : terms env field op operand = .ok l) :
    ∃ vs keyword, operand.members? = some vs ∧ env.keywordField op field = .ok keyword ∧
      l = .terms keyword vs := by
  unfold terms at h
  split at h
  case h_5 => cases h
  all_goals
    obtain ⟨keyword, hk, rfl⟩ := map_ok_iff.1 h
    exact ⟨_, keyword, rfl, hk, rfl⟩

/-- A comparison that compiles is the leaf it asserts, or a `must_not` of the leaf it denies. -/
theorem comparison_eq_ok {env : Environment} {field : String} {op : Operator} {operand : Value}
    {q : Query} (h : comparison env field op operand = .ok q) :
    ∃ l, env.leafOf? field op operand = some l ∧
      if op.denies then q = .bool .mustNot (.leaf l) ∨ q = .boolList .mustNot [.leaf l]
      else q = .leaf l := by
  cases op with
  | between | notBetween =>
    obtain ⟨l, hl, rfl⟩ := map_ok_iff.1 h
    obtain ⟨low, high, hm, hl⟩ := bounds_eq_ok hl
    exact ⟨l, by simp [Environment.leafOf?, hm, hl], by simp [Operator.denies]⟩
  | search =>
    simp only [comparison] at h
    split at h
    · injection h with h
      exact ⟨_, rfl, h.symm⟩
    · cases h
  | oneOf | noneOf =>
    obtain ⟨l, hl, rfl⟩ := map_ok_iff.1 h
    obtain ⟨vs, keyword, hm, hk, hl⟩ := terms_eq_ok hl
    exact ⟨l, by simp [Environment.leafOf?, hm, hk, hl, Except.toOption], by simp [Operator.denies]⟩
  | exact =>
    obtain ⟨keyword, hk, rfl⟩ := map_ok_iff.1 h
    exact ⟨.term keyword operand, by simp [Environment.leafOf?, hk, Except.toOption], rfl⟩
  | absent | differs =>
    injection h with h
    exact ⟨_, rfl, .inr h.symm⟩
  | _ =>
    injection h with h
    exact ⟨_, rfl, h.symm⟩

theorem conditions_eq_nil_iff {env : Environment} {scope : Option String} {cs : List Condition}
    {qs : List Query} (h : (conditions env scope cs).result = .ok qs) : qs = [] ↔ cs = [] := by
  cases cs with
  | nil =>
    cases h
    simp
  | cons c cs =>
    simp only [conditions, Outcome.result_bind_ok_iff] at h
    obtain ⟨q, -, qs', -, h⟩ := h
    cases h
    simp

end Compile

/-! ## The compiler keeps the meaning -/

namespace Engine

variable {Doc : Type} (E : Engine Doc) {env : Environment}

theorem holds_comparison {field : String} {op : Operator} {operand : Value} {q : Query}
    (h : Compile.comparison env field op operand = .ok q) (d : Doc) :
    E.Holds q.toValue d ↔ E.ComparisonHolds env field op operand d := by
  obtain ⟨l, hl, hq⟩ := Compile.comparison_eq_ok h
  cases hop : op.denies
  · rw [hop] at hq
    obtain rfl : q = .leaf l := by simpa using hq
    simp [ComparisonHolds, hl, hop]
  · rw [hop] at hq
    rcases (by simpa using hq : q = .bool .mustNot (.leaf l) ∨ q = .boolList .mustNot [.leaf l])
      with rfl | rfl <;> simp [ComparisonHolds, hl, hop]

mutual

theorem holds_condition (scope : Option String) : ∀ (c : Condition) {q : Query},
    (Compile.condition env scope c).result = .ok q →
      ∀ d, E.Holds q.toValue d ↔ E.ConditionHolds env scope c d
  | .is field v, q, h, d => by
    cases h
    simp [ConditionHolds]
  | .compare field op operand, q, h, d => by
    rw [ConditionHolds]
    exact E.holds_comparison h d
  | .multiMatch query type fields options, q, h, d => by
    simp only [Compile.condition, Outcome.result_ofExcept, Compile.multiMatch] at h
    split at h
    · injection h with h
      subst h
      simp [ConditionHolds]
    · cases h
  | .group clause wheres, q, h, d => by
    simp only [Compile.condition, Outcome.result_bind_ok_iff] at h
    obtain ⟨q', hq, h⟩ := h
    cases h
    simp only [holds_bool, ConditionHolds, holds_tree? scope wheres hq d]
  | .nested path wheres scoreMode true, q, h, d => by
    simp only [Compile.condition, if_true, Outcome.result_bind_ok_iff] at h
    obtain ⟨q', hq, h⟩ := h
    cases h
    simp [ConditionHolds, holds_tree? none wheres hq]
  | .nested path wheres scoreMode false, q, h, d => by
    simp only [Compile.condition, Bool.false_eq_true, if_false, Outcome.result_bind_ok_iff] at h
    obtain ⟨q', hq, h⟩ := h
    cases h
    simp [ConditionHolds, holds_tree? _ wheres hq]
  | .innerNested path wheres options scoreMode ignoreUnmapped, q, h, d => by
    simp only [Compile.condition, Outcome.result_bind_ok_iff] at h
    obtain ⟨inner, -, q', hq, h⟩ := h
    cases h
    simp [ConditionHolds, holds_tree? _ wheres hq]

theorem holds_tree? (scope : Option String) : ∀ (t : Option Where) {q : Query},
    (Compile.tree? env scope t).result = .ok q →
      ∀ d, E.Holds q.toValue d ↔ E.TreeHolds env scope t d
  | none, q, h, d => by
    cases h
    simp [TreeHolds]
  | some t, q, h, d => by
    rw [TreeHolds]
    exact holds_tree scope t h d

theorem holds_tree (scope : Option String) : ∀ (t : Where) {q : Query},
    (Compile.tree env scope t).result = .ok q →
      ∀ d, E.Holds q.toValue d ↔ E.WhereHolds env scope t d
  | .all cs, q, h, d => by
    simp only [Compile.tree, Outcome.result_bind_ok_iff] at h
    obtain ⟨qs, hqs, h⟩ := h
    cases h
    rw [WhereHolds, holds_must]
    exact holds_conditions scope cs hqs d
  | .any bs, q, h, d => by
    simp only [Compile.tree, Outcome.result_bind_ok_iff] at h
    obtain ⟨qs, hqs, h⟩ := h
    cases h
    obtain ⟨hnil, hsome⟩ := holds_branches scope bs hqs
    rw [WhereHolds, holds_should, hnil, hsome]
  | .only c, q, h, d => by
    rw [WhereHolds]
    exact holds_condition scope c h d

theorem holds_conditions (scope : Option String) : ∀ (cs : List Condition) {qs : List Query},
    (Compile.conditions env scope cs).result = .ok qs →
      ∀ d, (∀ q ∈ qs, E.Holds q.toValue d) ↔ E.AllHold env scope cs d
  | [], qs, h, d => by
    cases h
    simp [AllHold]
  | c :: cs, qs, h, d => by
    simp only [Compile.conditions, Outcome.result_bind_ok_iff] at h
    obtain ⟨q, hq, qs', hqs, h⟩ := h
    cases h
    simp only [List.forall_mem_cons, AllHold, holds_condition scope c hq d,
      holds_conditions scope cs hqs d]

/-- Empty branches leave no query behind, and the others one each. -/
theorem holds_branches (scope : Option String) : ∀ (bs : List (List Condition)) {qs : List Query},
    (Compile.branches env scope bs).result = .ok qs →
      (qs = [] ↔ ∀ b ∈ bs, b = []) ∧
        ∀ d, (∃ q ∈ qs, E.Holds q.toValue d) ↔ E.SomeHolds env scope bs d
  | [], qs, h => by
    cases h
    simp [SomeHolds]
  | b :: bs, qs, h => by
    simp only [Compile.branches, Outcome.result_bind_ok_iff] at h
    obtain ⟨qs', hb, more, hbs, h⟩ := h
    cases h
    have hnil := Compile.conditions_eq_nil_iff hb
    have hall := holds_conditions scope b hb
    obtain ⟨hmore, hsome⟩ := holds_branches scope bs hbs
    by_cases hqs : qs' = []
    · simp [hqs, hnil.1 hqs, hmore, hsome, SomeHolds]
    · have hne : b ≠ [] := fun h => hqs (hnil.2 h)
      simp [hqs, hne, hall, hsome, SomeHolds]

end

end Engine

namespace Where

/-- **Compiling keeps the meaning.** A value that compiles in a scope is a filter tree, raw or
typed, and its query document holds of a document exactly when the tree does, whatever the engine
makes of leaf fragments and of child documents. -/
theorem holds_compile_iff {env : Environment} {scope : Option String} {v : Value} {q : Query}
    (h : (compile env scope v).result = .ok q) :
    ∃ t, (ofArgument v).result = .ok t ∧
      ∀ {Doc : Type} (E : Engine Doc) (d : Doc),
        E.Holds q.toValue d ↔ E.TreeHolds env scope t d := by
  obtain ⟨t, ht, hq⟩ := result_compile_ok_iff.1 h
  exact ⟨t, ht, fun E => E.holds_tree? scope t hq⟩

/-- An empty branch beside one that looks for children of which a field differs. -/
theorem holds_compile_iff_nested :
    let v : Value := .object [("or", .list [.object [], .list [.object [("comments", .object
      [("nested", .object [("wheres", .object [("author", .object [("ne", .str "x")])]),
        ("score_mode", .str "avg")])])]]])]
    let q : Query := .boolList .should [.boolList .must [.nested "comments"
      (.boolList .mustNot [.leaf (.fullText "comments.author" (.str "x"))]) "avg" none]]
    (compile {} none v).result = .ok q ∧ ∃ t, (ofArgument v).result = .ok t ∧
      ∀ {Doc : Type} (E : Engine Doc) (d : Doc), E.Holds q.toValue d ↔ E.TreeHolds {} none t d := by
  intro v q
  have h : (compile {} none v).result = .ok q := result_compile_ok_iff.2 ⟨_, rfl, rfl⟩
  exact ⟨h, holds_compile_iff h⟩

end Where

end SearchRequest
