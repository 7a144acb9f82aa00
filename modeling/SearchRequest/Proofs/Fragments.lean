import Mathlib.Data.List.Forall2
import SearchRequest.Proofs.Compile
import SearchRequest.Proofs.InPlace
/-
The fragments of a compiled tree. `Sifted` is the compiler as it writes documents: a fragment with
nothing in it is left out of its list, and a branch in which no fragment is left is dropped. No
condition compiles to such a fragment, so what is dropped are the branches without a condition and
nothing else (`Sifted.ofTree_eq`).

`Where.compile_complete` says what that leaves: a query for every condition, in order, each of them
the one that the condition compiles to when it is alone.
-/
namespace SearchRequest

/-! ## Leaving out what is empty -/

/-- A compiled query as the document that it is written as. -/
def Compile.document (c : Compiled Query) : Compiled Value := do
  let q ← c
  return q.toValue

namespace Sifted

/-- The document of a nested query, around the document of its query. -/
def nested (path : String) (f : Value) (scoreMode : String) (inner : Option InnerHits) : Value :=
  .entry "nested" (.object ([("path", .str path), ("query", f)] ++ nestedEntries scoreMode inner))

/-- A fragment in front of others, unless there is nothing in it. -/
def cons (f : Value) (fs : List Value) : List Value :=
  if f.truthy then f :: fs else fs

/-- A branch in front of others, unless no fragment is left in it. -/
def consBranch (fs more : List Value) : List Value :=
  if fs.isEmpty then more else .entry "bool" (.entry "must" (.list fs)) :: more

mutual

/-- The document of a condition in a scope. -/
def condition (env : Environment) (scope : Option String) : Condition → Compiled Value
  | .group clause wheres => do
    let f ← tree? env scope wheres
    return .entry "bool" (.entry clause.word f)
  | .nested path wheres scoreMode negated =>
    let path := Field.qualify path scope
    if negated then do
      let f ← tree? env none wheres
      return .entry "bool" (.entry "must_not" (.list [nested path f scoreMode none]))
    else do
      let f ← tree? env (some path) wheres
      return nested path f scoreMode none
  | .innerNested path wheres options scoreMode ignoreUnmapped => do
    let path := Field.qualify path scope
    let inner ← Compile.innerHits env path options ignoreUnmapped
    let f ← tree? env (some path) wheres
    return nested path f scoreMode (some inner)
  | c => Compile.document (Compile.condition env scope c)

/-- The document of a tree that may be absent. -/
def tree? (env : Environment) (scope : Option String) : Option Where → Compiled Value
  | none => .of (.entry "match_all" (.object []))
  | some t => tree env scope t

/-- The document of a tree. -/
def tree (env : Environment) (scope : Option String) : Where → Compiled Value
  | .all cs => do
    let fs ← conditions env scope cs
    return .entry "bool" (.entry "must" (.list fs))
  | .any bs => do
    let fs ← branches env scope bs
    return .entry "bool" (.entry "should" (.list fs))
  | .only c => condition env scope c

/-- The fragments of conditions, as far as there is something in them. -/
def conditions (env : Environment) (scope : Option String) : List Condition → Compiled (List Value)
  | [] => .of []
  | c :: cs => do
    let f ← condition env scope c
    let fs ← conditions env scope cs
    return cons f fs

/-- The branches in which a fragment is left. -/
def branches (env : Environment) (scope : Option String) :
    List (List Condition) → Compiled (List Value)
  | [] => .of []
  | b :: bs => do
    let fs ← conditions env scope b
    let more ← branches env scope bs
    return consBranch fs more

end

/-- The document of a tree from any value. -/
def ofTree (env : Environment) (scope : Option String) (v : Value) : Compiled Value := do
  let t ← Compile.ofParsed (Where.ofArgument v)
  tree? env scope t

theorem cons_toValue (q : Query) (qs : List Query) :
    cons q.toValue (Query.toValues qs) = Query.toValues (q :: qs) := by
  rw [cons, if_pos q.truthy_toValue, Query.toValues]

theorem consBranch_toValues (qs more : List Query) :
    consBranch (Query.toValues qs) (Query.toValues more) =
      Query.toValues (if qs.isEmpty then more else .boolList .must qs :: more) := by
  cases qs with
  | nil => rfl
  | cons q qs => rfl

mutual

theorem condition_eq (env : Environment) (scope : Option String) :
    ∀ c, condition env scope c = Compile.document (Compile.condition env scope c)
  | .is .. | .compare .. | .multiMatch .. => rfl
  | .group _ wheres => by
    simp only [condition, Compile.condition, Compile.document, tree?_eq env scope wheres,
      bind_assoc, pure_bind]
    rfl
  | .nested _ wheres _ true => by
    simp only [condition, Compile.condition, Compile.document, tree?_eq env _ wheres, if_true,
      bind_assoc, pure_bind]
    rfl
  | .nested _ wheres _ false => by
    simp only [condition, Compile.condition, Compile.document, tree?_eq env _ wheres,
      Bool.false_eq_true, if_false, bind_assoc, pure_bind]
    rfl
  | .innerNested _ wheres _ _ _ => by
    simp only [condition, Compile.condition, Compile.document, tree?_eq env _ wheres, bind_assoc,
      pure_bind]
    rfl

theorem tree?_eq (env : Environment) (scope : Option String) :
    ∀ t, tree? env scope t = Compile.document (Compile.tree? env scope t)
  | none => rfl
  | some t => tree_eq env scope t

theorem tree_eq (env : Environment) (scope : Option String) :
    ∀ t, tree env scope t = Compile.document (Compile.tree env scope t)
  | .all cs => by
    simp only [tree, Compile.tree, Compile.document, conditions_eq env scope cs, bind_assoc,
      pure_bind]
    rfl
  | .any bs => by
    simp only [tree, Compile.tree, Compile.document, branches_eq env scope bs, bind_assoc,
      pure_bind]
    rfl
  | .only c => condition_eq env scope c

/-- No fragment of a list of conditions is left out. -/
theorem conditions_eq (env : Environment) (scope : Option String) :
    ∀ cs, conditions env scope cs = do
      let qs ← Compile.conditions env scope cs
      return Query.toValues qs
  | [] => rfl
  | c :: cs => by
    simp only [conditions, Compile.conditions, condition_eq env scope c, conditions_eq env scope cs,
      Compile.document, bind_assoc, pure_bind, cons_toValue]

theorem branches_eq (env : Environment) (scope : Option String) :
    ∀ bs, branches env scope bs = do
      let qs ← Compile.branches env scope bs
      return Query.toValues qs
  | [] => rfl
  | b :: bs => by
    simp only [branches, Compile.branches, conditions_eq env scope b, branches_eq env scope bs,
      bind_assoc, pure_bind, consBranch_toValues]

end

/-- Leaving out fragments with nothing in them changes no compile: neither its result nor its
effects. -/
theorem ofTree_eq (env : Environment) (scope : Option String) (v : Value) :
    ofTree env scope v = Compile.document (Where.compile env scope v) := by
  simp only [ofTree, Where.compile, Compile.document, tree?_eq, bind_assoc]

end Sifted

/-! ## Query positions -/

/-- A document at a query position of another one, at any depth: the operand of a boolean clause, a
member of its list, or the query of a nested query. -/
inductive Value.QueryIn : Value → Value → Prop
  | self (f : Value) : QueryIn f f
  | operand {es clauses : Entries} {word : String} {g f : Value} :
      ("bool", .object clauses) ∈ es → (word, g) ∈ clauses → (∀ gs, g ≠ .list gs) →
        QueryIn f g → QueryIn f (.object es)
  | member {es clauses : Entries} {word : String} {gs : List Value} {g f : Value} :
      ("bool", .object clauses) ∈ es → (word, .list gs) ∈ clauses → g ∈ gs →
        QueryIn f g → QueryIn f (.object es)
  | nested {es parts : Entries} {g f : Value} :
      ("nested", .object parts) ∈ es → ("query", g) ∈ parts → QueryIn f g → QueryIn f (.object es)

namespace Query

/-- The word for a kind of leaf is not that of a boolean or a nested query. -/
theorem exists_leaf_eq_entry (l : Leaf) :
    ∃ key v, l.toValue = .entry key v ∧ "bool" ≠ key ∧ "nested" ≠ key := by
  cases l <;> exact ⟨_, _, rfl, by decide, by decide⟩

/-- What stands under a clause of a boolean query is a query or a list of them. -/
theorem operand_of_mem {q : Query} {es clauses : Entries} {word : String} {g : Value}
    (hq : q.toValue = .object es) (hbool : ("bool", .object clauses) ∈ es)
    (hclause : (word, g) ∈ clauses) :
    (∃ q' : Query, q'.toValue = g) ∨ ∃ qs : List Query, .list (qs.map toValue) = g := by
  cases q with
  | bool clause q' =>
    cases hq
    cases List.mem_singleton.1 hbool
    cases List.mem_singleton.1 hclause
    exact .inl ⟨q', rfl⟩
  | boolList clause qs =>
    cases hq
    cases List.mem_singleton.1 hbool
    cases List.mem_singleton.1 hclause
    exact .inr ⟨qs, by rw [toValues_eq_map]⟩
  | leaf l =>
    obtain ⟨key, v, hl, hkey, -⟩ := exists_leaf_eq_entry l
    cases hl.symm.trans hq
    exact absurd (congrArg Prod.fst (List.mem_singleton.1 hbool)) hkey
  | matchAll | nested =>
    cases hq
    exact absurd (congrArg Prod.fst (List.mem_singleton.1 hbool)) (by simp)

/-- The query of a nested query is a query. -/
theorem query_of_mem {q : Query} {es parts : Entries} {g : Value}
    (hq : q.toValue = .object es) (hnested : ("nested", .object parts) ∈ es)
    (hquery : ("query", g) ∈ parts) : ∃ q' : Query, q'.toValue = g := by
  cases q with
  | nested path q' scoreMode inner =>
    cases hq
    cases List.mem_singleton.1 hnested
    have hg : g = q'.toValue := by
      cases inner <;> simpa [nestedEntries] using hquery
    exact ⟨q', hg.symm⟩
  | leaf l =>
    obtain ⟨key, v, hl, -, hkey⟩ := exists_leaf_eq_entry l
    cases hl.symm.trans hq
    exact absurd (congrArg Prod.fst (List.mem_singleton.1 hnested)) hkey
  | matchAll | bool | boolList =>
    cases hq
    exact absurd (congrArg Prod.fst (List.mem_singleton.1 hnested)) (by simp)

/-- Every query position in the document of a query holds the document of a query. -/
theorem exists_of_queryIn {f g : Value} (h : f.QueryIn g) :
    ∀ q : Query, q.toValue = g → ∃ q' : Query, q'.toValue = f := by
  induction h with
  | self f => exact fun q hq => ⟨q, hq⟩
  | operand hbool hclause hlist _ ih =>
    intro q hq
    rcases operand_of_mem hq hbool hclause with ⟨q', hq'⟩ | ⟨qs, hqs⟩
    · exact ih q' hq'
    · exact absurd hqs.symm (hlist _)
  | member hbool hclause hmem _ ih =>
    intro q hq
    rcases operand_of_mem hq hbool hclause with ⟨q', hq'⟩ | ⟨qs, hqs⟩
    · obtain ⟨key, v, hentry⟩ := q'.exists_toValue_eq_entry
      rw [hentry] at hq'
      cases hq'
    · cases hqs
      obtain ⟨q', -, hq'⟩ := List.mem_map.1 hmem
      exact ih q' hq'
  | nested hnested hquery _ ih =>
    intro q hq
    obtain ⟨q', hq'⟩ := query_of_mem hq hnested hquery
    exact ih q' hq'

end Query

/-! ## The fragments of conditions -/

namespace Compile

variable {env : Environment} {scope : Option String}

theorem forall₂_conditions {cs : List Condition} {qs : List Query}
    (h : (conditions env scope cs).result = .ok qs) :
    List.Forall₂ (fun c q => (condition env scope c).result = .ok q) cs qs := by
  induction cs generalizing qs with
  | nil =>
    cases h
    exact .nil
  | cons c cs ih =>
    obtain ⟨q, hq, h'⟩ := Outcome.result_bind_ok_iff.1 h
    obtain ⟨more, hmore, hqs⟩ := Outcome.result_bind_ok_iff.1 h'
    cases hqs
    exact .cons hq (ih hmore)

/-- The branches that have a condition compile to one list of queries each. -/
theorem forall₂_branches {bs : List (List Condition)} {qs : List Query}
    (h : (branches env scope bs).result = .ok qs) :
    ∃ qss : List (List Query), qs = qss.map (.boolList .must) ∧
      List.Forall₂ (List.Forall₂ fun c q => (condition env scope c).result = .ok q)
        (bs.filter (!·.isEmpty)) qss := by
  induction bs generalizing qs with
  | nil =>
    cases h
    exact ⟨[], rfl, .nil⟩
  | cons b bs ih =>
    obtain ⟨own, hown, h'⟩ := Outcome.result_bind_ok_iff.1 h
    obtain ⟨more, hmore, hqs⟩ := Outcome.result_bind_ok_iff.1 h'
    obtain ⟨qss, rfl, hall⟩ := ih hmore
    have hbranch := forall₂_conditions hown
    cases hqs
    cases hbranch with
    | nil => exact ⟨qss, rfl, hall⟩
    | cons hc hcs => exact ⟨_ :: qss, rfl, .cons (.cons hc hcs) hall⟩

end Compile

/-- A condition compiles to a fragment when it is alone, whatever the registry already holds. -/
def Condition.Yields (env : Environment) (scope : Option String) (c : Condition) (f : Value) :
    Prop :=
  ∀ r : Registry, ∃ q : Query,
    ((InPlace.ofCondition env scope (.condition c)).on r).1 = .ok q ∧ q.toValue = f

theorem Condition.yields_of_ok {env : Environment} {scope : Option String} {c : Condition}
    {q : Query} (h : (Compile.condition env scope c).result = .ok q) :
    c.Yields env scope q.toValue := by
  intro r
  refine ⟨q, ?_, rfl⟩
  rw [(InPlace.adds_ofCondition env scope (.condition c)).on_eq r, compile_condition, h]

/-- Conditions yield the documents of the queries that they compile to. -/
theorem Condition.forall₂_yields {env : Environment} {scope : Option String} {cs : List Condition}
    {qs : List Query}
    (h : List.Forall₂ (fun c q => (Compile.condition env scope c).result = .ok q) cs qs) :
    List.Forall₂ (Condition.Yields env scope) cs (Query.toValues qs) := by
  rw [Query.toValues_eq_map, List.forall₂_map_right_iff]
  exact h.imp fun _ _ hq => Condition.yields_of_ok hq

/-- The fragments of a conjunction. -/
def Value.conjunction (fs : List Value) : Value :=
  .entry "bool" (.entry "must" (.list fs))

namespace Where

/-- A document holds what every condition of a tree yields, in order and nothing else. Branches
without a condition have no place in it. -/
def Complete (env : Environment) (scope : Option String) : Option Where → Value → Prop
  | none, f => f = .entry "match_all" (.object [])
  | some (.only c), f => c.Yields env scope f
  | some (.all cs), f =>
    ∃ fs, f = .conjunction fs ∧ List.Forall₂ (Condition.Yields env scope) cs fs
  | some (.any bs), f =>
    ∃ fss : List (List Value), f = .entry "bool" (.entry "should" (.list (fss.map .conjunction))) ∧
      List.Forall₂ (List.Forall₂ (Condition.Yields env scope)) (bs.filter (!·.isEmpty)) fss

theorem complete_tree? {env : Environment} {scope : Option String} {t : Option Where} {q : Query}
    (h : (Compile.tree? env scope t).result = .ok q) : Complete env scope t q.toValue := by
  match t with
  | none =>
    cases h
    rfl
  | some (.only c) => exact Condition.yields_of_ok h
  | some (.all cs) =>
    obtain ⟨qs, hqs, hq⟩ := Outcome.result_bind_ok_iff.1 h
    cases hq
    exact ⟨_, rfl, Condition.forall₂_yields (Compile.forall₂_conditions hqs)⟩
  | some (.any bs) =>
    obtain ⟨qs, hqs, hq⟩ := Outcome.result_bind_ok_iff.1 h
    cases hq
    obtain ⟨qss, rfl, hall⟩ := Compile.forall₂_branches hqs
    refine ⟨qss.map Query.toValues, ?_, ?_⟩
    · rw [Query.toValue, Query.toValues_eq_map, List.map_map, List.map_map]
      rfl
    · rw [List.forall₂_map_right_iff]
      exact hall.imp fun _ _ hqs => Condition.forall₂_yields hqs

/-- **No condition is dropped.** When a tree compiles, leaving out fragments with nothing in them
leaves out none, every query position of the document holds a mapping of one entry, and the document
holds the fragment of each condition in its place. -/
theorem compile_complete {env : Environment} {scope : Option String} {v : Value} {q : Query}
    (h : (compile env scope v).result = .ok q) :
    (Sifted.ofTree env scope v).result = .ok q.toValue ∧
      (∀ f : Value, f.QueryIn q.toValue → ∃ key w, f = .entry key w) ∧
      ∃ t, (ofArgument v).result = .ok t ∧ Complete env scope t q.toValue := by
  refine ⟨?_, ?_, ?_⟩
  · rw [Sifted.ofTree_eq]
    exact Outcome.result_bind_ok_iff.2 ⟨q, h, rfl⟩
  · intro f hf
    obtain ⟨q', rfl⟩ := Query.exists_of_queryIn hf q rfl
    exact q'.exists_toValue_eq_entry
  · obtain ⟨t, ht, hq⟩ := result_compile_ok_iff.1 h
    exact ⟨t, ht, complete_tree? hq⟩

/-- An empty branch beside one whose first condition registers a marker. -/
theorem compile_complete_branches :
    let comments : Value := .object [("comments", .object [("innerNested", .object
      [("score_mode", .str "avg"), ("options", .object [("prev_search_after", .int 1)])])])]
    let other : Value := .object [("author", .object [("ne", .str "x")])]
    let v : Value := .object [("or", .list [.object [], .object [("and", .list [comments, other])]])]
    let q : Query := .boolList .should [.boolList .must
      [.nested "comments" .matchAll "avg" (some ⟨[("size", .int 100)], false⟩),
        .boolList .mustNot [.leaf (.fullText "author" (.str "x"))]]]
    (compile {} none v).result = .ok q ∧ (Sifted.ofTree {} none v).result = .ok q.toValue ∧
      (∀ f : Value, f.QueryIn q.toValue → ∃ key w, f = .entry key w) ∧
      ∃ t, (ofArgument v).result = .ok t ∧ Complete {} none t q.toValue := by
  intro comments other v q
  have h : (compile {} none v).result = .ok q := result_compile_ok_iff.2 ⟨_, rfl, rfl⟩
  exact ⟨h, compile_complete h⟩

end Where

end SearchRequest
