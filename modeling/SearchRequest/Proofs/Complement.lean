import SearchRequest.Proofs.Fragments
import SearchRequest.Proofs.Scope
/-
Conditions that deny. Each of them compiles as the condition that it denies does, with the fragment
of that one under `must_not`: alone for `nin` and `not_between`, in a list for the others. A denied
`like` is the exception; it denies inside its query text.

A negated nested condition compiles its sub-tree at the root, where the other one opens the scope of
its path. The two agree on a sub-tree that is written out already (`Compile.tree?_writtenOut`).
-/
namespace SearchRequest

/-! ## Sub-trees that are written out -/

theorem Field.qualify_of_isUnder {path field : String} (h : isUnder path field = true) :
    qualify field (some path) = field := by
  by_cases hempty : path.isEmpty <;> simp [qualify, hempty, h]

namespace WrittenOut

mutual

/-- The field or path of a condition is under a path. For a group this is asked of its sub-tree, and
a search in several fields is none of these. -/
def condition (path : String) : Condition → Prop
  | .is field _ | .compare field _ _ => Field.isUnder path field
  | .nested field _ _ _ | .innerNested field _ _ _ _ => Field.isUnder path field
  | .group _ wheres => tree? path wheres
  | .multiMatch .. => False

/-- A tree that may be absent is written out in its own scope. -/
def tree? (path : String) : Option Where → Prop
  | none => True
  | some t => tree path t

/-- All fields and paths in the own scope of a tree are under a path, and no search in several
fields is there. -/
def tree (path : String) : Where → Prop
  | .all cs => conditions path cs
  | .any bs => branches path bs
  | .only c => condition path c

/-- All of the conditions are written out. -/
def conditions (path : String) : List Condition → Prop
  | [] => True
  | c :: cs => condition path c ∧ conditions path cs

/-- All conditions of the branches are written out. -/
def branches (path : String) : List (List Condition) → Prop
  | [] => True
  | b :: bs => conditions path b ∧ branches path bs

end

variable {path : String}

mutual

theorem qualified_condition :
    ∀ c, condition path c → Qualified.condition (some path) c = c ∧ ¬ Searches.condition c
  | .is .., h | .compare .., h | .nested .., h | .innerNested .., h => by
    refine ⟨?_, id⟩
    rw [Qualified.condition, Field.qualify_of_isUnder h]
  | .group _ wheres, h => by
    obtain ⟨hq, hs⟩ := qualified_tree? wheres h
    refine ⟨?_, hs⟩
    rw [Qualified.condition, hq]
  | .multiMatch .., h => h.elim

theorem qualified_tree? :
    ∀ t, tree? path t → Qualified.tree? (some path) t = t ∧ ¬ Searches.tree? t
  | none, _ => ⟨rfl, id⟩
  | some t, h => by
    obtain ⟨hq, hs⟩ := qualified_tree t h
    refine ⟨?_, hs⟩
    rw [Qualified.tree?, hq]

/-- Writing out a tree that is written out changes nothing. -/
theorem qualified_tree :
    ∀ t, tree path t → Qualified.tree (some path) t = t ∧ ¬ Searches.tree t
  | .all cs, h => by
    obtain ⟨hq, hs⟩ := qualified_conditions cs h
    refine ⟨?_, hs⟩
    rw [Qualified.tree, hq]
  | .any bs, h => by
    obtain ⟨hq, hs⟩ := qualified_branches bs h
    refine ⟨?_, hs⟩
    rw [Qualified.tree, hq]
  | .only c, h => by
    obtain ⟨hq, hs⟩ := qualified_condition c h
    refine ⟨?_, hs⟩
    rw [Qualified.tree, hq]

theorem qualified_conditions :
    ∀ cs, conditions path cs → Qualified.conditions (some path) cs = cs ∧ ¬ Searches.conditions cs
  | [], _ => ⟨rfl, id⟩
  | c :: cs, ⟨hc, hcs⟩ => by
    obtain ⟨hq, hs⟩ := qualified_condition c hc
    obtain ⟨hqs, hss⟩ := qualified_conditions cs hcs
    refine ⟨?_, not_or.2 ⟨hs, hss⟩⟩
    rw [Qualified.conditions, hq, hqs]

theorem qualified_branches :
    ∀ bs, branches path bs → Qualified.branches (some path) bs = bs ∧ ¬ Searches.branches bs
  | [], _ => ⟨rfl, id⟩
  | b :: bs, ⟨hb, hbs⟩ => by
    obtain ⟨hq, hs⟩ := qualified_conditions b hb
    obtain ⟨hqs, hss⟩ := qualified_branches bs hbs
    refine ⟨?_, not_or.2 ⟨hs, hss⟩⟩
    rw [Qualified.branches, hq, hqs]

end

end WrittenOut

/-- A tree that is written out compiles in the scope of its path as it does at the root. -/
theorem Compile.tree?_writtenOut {path : String} {t : Option Where}
    (h : WrittenOut.tree? path t) (env : Environment) :
    tree? env (some path) t = tree? env none t := by
  obtain ⟨hq, hs⟩ := WrittenOut.qualified_tree? t h
  calc tree? env (some path) t
    _ = tree? env none (Qualified.tree? (some path) t) := (tree?_qualified env _ t hs).symm
    _ = tree? env none t := by rw [hq]

/-! ## Comparisons that deny -/

/-- A document under the clause that denies it. -/
def Value.denied (f : Value) : Value :=
  .entry "bool" (.entry "must_not" f)

/-- One compile denies what another asserts: it adds the same effects, and either both succeed, with
the asserted document under `must_not`, or both fail with a report of the same kind. -/
def Denies (asserted denied : Compiled Value) : Prop :=
  denied.effects = asserted.effects ∧
    match asserted.result, denied.result with
    | .ok f, .ok f' => f' = .denied f
    | .error e, .error e' => ∃ kind,
        e.report?.map Report.kind = some kind ∧ e'.report?.map Report.kind = some kind
    | _, _ => False

/-- The document of a compile in a list under the clause that denies it. -/
def Compile.deniedList (c : Compiled Value) : Compiled Value := do
  let f ← c
  return .denied (.list [f])

/-- The document of a typed condition in a scope. -/
def Condition.document (env : Environment) (scope : Option String) (c : Condition) :
    Compiled Value :=
  Compile.document (compile env scope (.condition c))

namespace Compile

variable (env : Environment) (scope : Option String) (field : String) (operand : Value)

/-- An operand has two bounds, whichever operator asks for them, or none of them is satisfied. -/
theorem bounds_cases :
    (∃ l, ∀ op, bounds field op operand = .ok l) ∨
      ∀ op, bounds field op operand = .error (.notTwoBounds field op operand) := by
  unfold bounds
  split
  case h_5 => exact .inr fun _ => rfl
  all_goals exact .inl ⟨_, fun _ => rfl⟩

/-- All operators but `exact` compare with the same keyword field, or with the field itself. -/
theorem exists_keywordField :
    ∃ keyword, ∀ op, op ≠ .exact → env.keywordField op field = .ok keyword := by
  unfold Environment.keywordField
  split
  · exact ⟨field, fun _ _ => rfl⟩
  · split
    · exact ⟨_, fun _ _ => rfl⟩
    · exact ⟨field, fun _ hop => if_neg hop⟩

/-- An operand has terms, whichever membership operator asks for them, or none of them is
satisfied. -/
theorem terms_cases :
    (∃ l, ∀ op, op ≠ .exact → terms env field op operand = .ok l) ∨
      ∀ op, terms env field op operand = .error (.notTerms field op) := by
  obtain ⟨keyword, hkeyword⟩ := exists_keywordField env field
  unfold terms
  split
  case h_1 vs | h_2 vs | h_3 vs | h_4 vs =>
    refine .inl ⟨.terms keyword vs, fun op hop => ?_⟩
    rw [hkeyword op hop]
    rfl
  case h_5 => exact .inr fun _ => rfl

/-- A leaf that is denied alone, when both sides compute the same leaf or fail alike. -/
theorem denies_leaf {x y : Except Error Leaf}
    (h : (∃ l, x = .ok l ∧ y = .ok l) ∨ ∃ e e' kind, x = .error e ∧ y = .error e' ∧
      e.report?.map Report.kind = some kind ∧ e'.report?.map Report.kind = some kind) :
    Denies (document (.ofExcept (x.map .leaf)))
      (document (.ofExcept (y.map fun l => .bool .mustNot (.leaf l)))) := by
  obtain ⟨l, rfl, rfl⟩ | ⟨e, e', kind, rfl, rfl, he, he'⟩ := h
  · exact ⟨rfl, rfl⟩
  · exact ⟨rfl, kind, he, he'⟩

theorem denies_between :
    Denies (Condition.document env scope (.compare field .between operand))
      (Condition.document env scope (.compare field .notBetween operand)) := by
  simp only [Condition.document, Condition.compile_condition, condition, comparison]
  apply denies_leaf
  obtain ⟨l, hl⟩ | he := bounds_cases (Field.qualify field scope) operand
  · exact .inl ⟨l, hl _, hl _⟩
  · exact .inr ⟨_, _, _, he _, he _, rfl, rfl⟩

theorem denies_oneOf :
    Denies (Condition.document env scope (.compare field .oneOf operand))
      (Condition.document env scope (.compare field .noneOf operand)) := by
  simp only [Condition.document, Condition.compile_condition, condition, comparison]
  apply denies_leaf
  obtain ⟨l, hl⟩ | he := terms_cases env (Field.qualify field scope) operand
  · exact .inl ⟨l, hl _ (by decide), hl _ (by decide)⟩
  · exact .inr ⟨_, _, _, he _, he _, rfl, rfl⟩

/-- A negated nested condition denies the other one, when its sub-tree is written out. -/
theorem document_nested {path : String} {wheres : Option Where}
    (h : WrittenOut.tree? (Field.qualify path scope) wheres) (scoreMode : String) :
    Condition.document env scope (.nested path wheres scoreMode true) =
      deniedList (Condition.document env scope (.nested path wheres scoreMode false)) := by
  simp only [Condition.document, Condition.compile_condition, condition, document, deniedList,
    if_true, Bool.false_eq_true, if_false, tree?_writtenOut h, bind_assoc, pure_bind]
  rfl

end Compile

namespace Condition

/-- The document of a search for a text in a field or in none. -/
def searched (text : String) : Value :=
  .entry "query_string" (.entry "query" (.str text))

/-- **What denies is the complement of what it denies.** `nin` and `not_between` succeed where `in`
and `between` do, with their document under `must_not`, and fail with the same kind of error.
`not_exists`, `ne` and a negated nested condition hold the document of what they deny in a list,
and have its effects and its failure; the sub-tree of a nested condition has to be written out, as it
is compiled in another scope. `not_like` puts the query text of `like` into a negation. -/
theorem document_denied (env : Environment) (scope : Option String) :
    (∀ field operand,
      Denies (document env scope (.compare field .oneOf operand))
        (document env scope (.compare field .noneOf operand)) ∧
      Denies (document env scope (.compare field .between operand))
        (document env scope (.compare field .notBetween operand)) ∧
      (∀ other, document env scope (.compare field .absent operand) =
        Compile.deniedList (document env scope (.compare field .present other))) ∧
      document env scope (.compare field .differs operand) =
        Compile.deniedList (document env scope (.is field operand)) ∧
      ∃ text, document env scope (.compare field .like operand) = .of (searched text) ∧
        document env scope (.compare field .notLike operand) =
          .of (searched ("(NOT " ++ text ++ ")"))) ∧
    ∀ path wheres scoreMode, WrittenOut.tree? (Field.qualify path scope) wheres →
      document env scope (.nested path wheres scoreMode true) =
        Compile.deniedList (document env scope (.nested path wheres scoreMode false)) := by
  refine ⟨fun field operand => ?_, fun path wheres scoreMode h =>
    Compile.document_nested env scope h scoreMode⟩
  exact ⟨Compile.denies_oneOf env scope field operand,
    Compile.denies_between env scope field operand, fun _ => rfl, rfl,
    QueryText.contains (Field.qualify field scope) operand.asText, rfl, rfl⟩

/-- Under a parent path, with a group and a negated nested condition in the sub-tree. -/
theorem document_denied_comments :
    let wheres : Option Where := some (.all [.is "post.comments.author" (.str "x"),
      .group .should (some (.only (.nested "post.comments.replies" none "avg" true)))])
    WrittenOut.tree? (Field.qualify "comments" (some "post")) wheres ∧
      document {} (some "post") (.nested "comments" wheres "avg" true) =
        Compile.deniedList (document {} (some "post") (.nested "comments" wheres "avg" false)) := by
  intro wheres
  have hauthor : Field.isUnder (Field.qualify "comments" (some "post")) "post.comments.author" := by
    decide
  have hreplies : Field.isUnder (Field.qualify "comments" (some "post")) "post.comments.replies" := by
    decide
  have h : WrittenOut.tree? (Field.qualify "comments" (some "post")) wheres :=
    ⟨hauthor, hreplies, trivial⟩
  exact ⟨h, (document_denied {} (some "post")).2 _ _ _ h⟩

end Condition

end SearchRequest
