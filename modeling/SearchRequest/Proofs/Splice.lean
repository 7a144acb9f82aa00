import SearchRequest.Proofs.Meaning
/-
A search clause added to a filter tree. In most trees this is conjunction: the new tree holds where
the old one and the clause hold (`Search.holds_addTo_iff`). The exception is an `or` with a branch
that has no conditions beside one that has some. The compiler drops the first branch from the tree
as it stands, but with the clause in it the branch is kept, and it alone admits every document the
clause finds.
-/
namespace SearchRequest

/-- A branch without conditions stands beside one that has some, and is dropped. -/
def Where.DropsBranch : Option Where → Prop
  | some (.any bs) => (∃ b ∈ bs, b = []) ∧ ∃ b ∈ bs, b ≠ []
  | _ => False

namespace Engine

variable {Doc : Type} (E : Engine Doc) (env : Environment) (scope : Option String)

theorem allHold_append (cs : List Condition) (c : Condition) (d : Doc) :
    E.AllHold env scope (cs ++ [c]) d ↔
      E.AllHold env scope cs d ∧ E.ConditionHolds env scope c d := by
  induction cs with
  | nil => simp [AllHold]
  | cons c' cs ih => simp only [List.cons_append, AllHold, ih, and_assoc]

/-- With a condition in every branch, a branch that was empty asks for that condition alone. -/
theorem someHolds_append (bs : List (List Condition)) (c : Condition) (d : Doc) :
    E.SomeHolds env scope (bs.map (· ++ [c])) d ↔
      ((∃ b ∈ bs, b = []) ∨ E.SomeHolds env scope bs d) ∧ E.ConditionHolds env scope c d := by
  induction bs with
  | nil => simp [SomeHolds]
  | cons b bs ih =>
    have hne : b ++ [c] ≠ [] := by simp
    simp only [List.map_cons, SomeHolds, ih, allHold_append, List.mem_cons, exists_eq_or_imp, hne,
      ne_eq, not_false_eq_true, true_and]
    by_cases hb : b = []
    · simp [hb, AllHold]
    · simp only [hb, false_or, not_false_eq_true, true_and, or_and_right]
      exact or_left_comm

theorem treeHolds_splice (c : Condition) (t : Option Where) (d : Doc) :
    E.TreeHolds env scope (some (Search.splice c t)) d ↔
      (Where.DropsBranch t ∨ E.TreeHolds env scope t d) ∧ E.ConditionHolds env scope c d := by
  match t with
  | none => simp [Search.splice, TreeHolds, WhereHolds]
  | some (.all cs) =>
    simp [Search.splice, TreeHolds, WhereHolds, Where.DropsBranch, allHold_append]
  | some (.any []) => simp [Search.splice, TreeHolds, WhereHolds]
  | some (.any (b :: bs)) =>
    have hnew : ¬ ∀ b' ∈ (b :: bs).map (· ++ [c]), b' = [] := by simp
    simp only [Search.splice, TreeHolds, WhereHolds, someHolds_append, Where.DropsBranch, hnew,
      false_or]
    refine and_congr_left fun _ => ?_
    -- A tree of nothing but empty branches drops none and holds everywhere.
    by_cases hall : ∀ b' ∈ b :: bs, b' = []
    · exact iff_of_true (.inl ⟨b, by simp, hall b (by simp)⟩) (.inr (.inl hall))
    · have hfull : ∃ b' ∈ b :: bs, b' ≠ [] := by
        simpa only [Classical.not_forall, exists_prop] using hall
      exact or_congr (and_iff_left hfull).symm (or_iff_right hall).symm
  | some (.only c') => simp [Search.splice, TreeHolds, WhereHolds, Where.DropsBranch, AllHold]

end Engine

/-! ## The spliced tree compiles -/

namespace Compile

variable {env : Environment} {scope : Option String} {c : Condition} {qc : Query}

theorem conditions_append (hc : (condition env scope c).result = .ok qc) {cs : List Condition}
    {qs : List Query} (h : (conditions env scope cs).result = .ok qs) :
    (conditions env scope (cs ++ [c])).result = .ok (qs ++ [qc]) := by
  induction cs generalizing qs with
  | nil =>
    cases h
    simp only [List.nil_append, conditions, Outcome.result_bind_ok_iff]
    exact ⟨qc, hc, [], rfl, rfl⟩
  | cons c' cs ih =>
    simp only [conditions, Outcome.result_bind_ok_iff] at h
    obtain ⟨q, hq, qs', hqs, h⟩ := h
    cases h
    simp only [List.cons_append, conditions, Outcome.result_bind_ok_iff]
    exact ⟨q, hq, qs' ++ [qc], ih hqs, rfl⟩

theorem branches_append (hc : (condition env scope c).result = .ok qc) {bs : List (List Condition)}
    {qs : List Query} (h : (branches env scope bs).result = .ok qs) :
    ∃ qs', (branches env scope (bs.map (· ++ [c]))).result = .ok qs' := by
  induction bs generalizing qs with
  | nil => exact ⟨[], rfl⟩
  | cons b bs ih =>
    simp only [branches, Outcome.result_bind_ok_iff] at h
    obtain ⟨qs₁, hb, more, hbs, -⟩ := h
    obtain ⟨qs', hqs'⟩ := ih hbs
    simp only [List.map_cons, branches, Outcome.result_bind_ok_iff]
    exact ⟨_, qs₁ ++ [qc], conditions_append hc hb, qs', hqs', rfl⟩

/-- A condition that compiles can be added to every tree that does. -/
theorem tree_splice (hc : (condition env scope c).result = .ok qc) {t : Option Where} {q : Query}
    (h : (tree? env scope t).result = .ok q) :
    ∃ q', (tree env scope (Search.splice c t)).result = .ok q' := by
  match t with
  | none | some (.any []) => exact ⟨qc, hc⟩
  | some (.all cs) =>
    simp only [tree?, tree, Outcome.result_bind_ok_iff] at h
    obtain ⟨qs, hqs, -⟩ := h
    simp only [Search.splice, tree, Outcome.result_bind_ok_iff]
    exact ⟨_, _, conditions_append hc hqs, rfl⟩
  | some (.any (b :: bs)) =>
    simp only [tree?, tree, Outcome.result_bind_ok_iff] at h
    obtain ⟨qs, hqs, -⟩ := h
    obtain ⟨qs', hqs'⟩ := branches_append hc hqs
    simp only [Search.splice, tree, Outcome.result_bind_ok_iff]
    exact ⟨_, qs', hqs', rfl⟩
  | some (.only c') =>
    have hcs : (conditions env scope [c']).result = .ok [q] := by
      simp only [conditions, Outcome.result_bind_ok_iff]
      exact ⟨q, h, [], rfl, rfl⟩
    simp only [Search.splice, tree, Outcome.result_bind_ok_iff]
    exact ⟨_, _, conditions_append hc hcs, rfl⟩

end Compile

namespace Search

/-- The search clause compiles in every scope, since it names no field. -/
theorem condition_clause (env : Environment) (scope : Option String) (ps : Entries) :
    Compile.condition env scope (clause (.object ps)) = .of (.leaf (.queryString ps)) := rfl

/-- **Adding a search clause.** When a tree compiles, so does the tree with a search clause added.
Its query holds where the old query and the clause hold, unless the tree drops a branch: then the
rest of the tree no longer counts, and the query holds wherever the clause does. -/
theorem holds_addTo_iff {env : Environment} {scope : Option String} {w : Value} {q : Query}
    (h : (Where.compile env scope w).result = .ok q) (ps : Entries) :
    ∃ t t' q', (Where.ofArgument w).result = .ok t ∧ (addTo w (.object ps)).result = .ok t' ∧
      (Where.compile env scope (.tree t')).result = .ok q' ∧
      ∀ {Doc : Type} (E : Engine Doc) (d : Doc),
        let clauseHolds := E.Holds (.entry "query_string" (.object ps)) d
        (¬ Where.DropsBranch t → (E.Holds q'.toValue d ↔ E.Holds q.toValue d ∧ clauseHolds)) ∧
        (Where.DropsBranch t → (E.Holds q'.toValue d ↔ clauseHolds)) := by
  obtain ⟨t, ht, hq⟩ := Where.result_compile_ok_iff.1 h
  have hc := congrArg Outcome.result (condition_clause env scope ps)
  obtain ⟨q', hq'⟩ := Compile.tree_splice hc hq
  refine ⟨t, _, q', ht, result_addTo_ok_iff.2 ⟨t, ht, rfl⟩, by rwa [Where.compile_tree],
    fun {Doc} E d => ?_⟩
  have hold : E.Holds q.toValue d ↔ E.TreeHolds env scope t d := E.holds_tree? scope t hq d
  have hclause : E.Holds (.entry "query_string" (.object ps)) d ↔
      E.ConditionHolds env scope (clause (.object ps)) d := E.holds_condition scope _ hc d
  have hnew : E.Holds q'.toValue d ↔ _ :=
    (E.holds_tree scope _ hq' d).trans (E.treeHolds_splice env scope (clause (.object ps)) t d)
  rw [← hold, ← hclause] at hnew
  exact ⟨fun hdrop => by rw [hnew, or_iff_right hdrop],
    fun hdrop => by rw [hnew]; exact and_iff_right (.inl hdrop)⟩

/-- Two branches, of which neither is empty. -/
theorem holds_addTo_iff_branches :
    let w : Value := .object [("or", .list [.object [("and", .list [.object [("a", .int 1)]])],
      .list [.object [("b", .object [("not_exists", .null)])]]])]
    let q : Query := .boolList .should [.boolList .must [.leaf (.fullText "a" (.int 1))],
      .boolList .must [.boolList .mustNot [.leaf (.present "b")]]]
    let ps : Entries := [("query", .str "x")]
    (Where.compile {} none w).result = .ok q ∧
      ∃ t t' q', (Where.ofArgument w).result = .ok t ∧ (addTo w (.object ps)).result = .ok t' ∧
        (Where.compile {} none (.tree t')).result = .ok q' ∧
        ∀ {Doc : Type} (E : Engine Doc) (d : Doc),
          let clauseHolds := E.Holds (.entry "query_string" (.object ps)) d
          (¬ Where.DropsBranch t → (E.Holds q'.toValue d ↔ E.Holds q.toValue d ∧ clauseHolds)) ∧
          (Where.DropsBranch t → (E.Holds q'.toValue d ↔ clauseHolds)) := by
  intro w q ps
  have h : (Where.compile {} none w).result = .ok q := Where.result_compile_ok_iff.2 ⟨_, rfl, rfl⟩
  exact ⟨h, holds_addTo_iff h ps⟩

/-- An empty branch beside the branch `a = 1`: a document that is not `a = 1` is excluded by the
tree, and admitted once a search clause that finds it is added. -/
theorem addTo_admits_excluded :
    let w : Value := .object
      [("or", .list [.object [], .object [("and", .list [.object [("a", .int 1)]])]])]
    let ps : Entries := [("query", .str "x")]
    let E : Engine Unit := ⟨fun v _ => v = .entry "query_string" (.object ps), fun _ _ _ => False⟩
    ∃ q t' q', (Where.compile {} none w).result = .ok q ∧ (addTo w (.object ps)).result = .ok t' ∧
      (Where.compile {} none (.tree t')).result = .ok q' ∧ E.Holds q'.toValue () ∧
      ¬ (E.Holds q.toValue () ∧ E.Holds (.entry "query_string" (.object ps)) ()) := by
  intro w ps E
  refine ⟨.boolList .should [.boolList .must [.leaf (.fullText "a" (.int 1))]], _,
    .boolList .should [.boolList .must [.leaf (.queryString ps)],
      .boolList .must [.leaf (.fullText "a" (.int 1)), .leaf (.queryString ps)]],
    Where.result_compile_ok_iff.2 ⟨_, rfl, rfl⟩, rfl, rfl, ?_, ?_⟩
  · simp [E, Leaf.toValue]
  · simp [E, Leaf.toValue, Value.entry]

end Search

end SearchRequest
