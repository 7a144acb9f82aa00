import SearchRequest.Proofs.Compile
/-
The law of scopes. Compiling a tree in a scope is compiling, at the root, the tree whose fields are
written out in full (`Where.compile_qualified`). Only the tree's own scope is written out: its
conditions and those reached through groups. A nested condition opens a scope of its own, so its
path is written out and its sub-tree is left as it is.

The one exception is a search in several fields, which no scope but the root accepts.
-/
namespace SearchRequest

namespace Qualified

variable (scope : Option String)

mutual

/-- A condition with its field or path written out from the root. -/
def condition : Condition → Condition
  | .is field v => .is (Field.qualify field scope) v
  | .compare field op operand => .compare (Field.qualify field scope) op operand
  | .group clause wheres => .group clause (tree? wheres)
  | .nested path wheres scoreMode negated =>
    .nested (Field.qualify path scope) wheres scoreMode negated
  | .innerNested path wheres options scoreMode ignoreUnmapped =>
    .innerNested (Field.qualify path scope) wheres options scoreMode ignoreUnmapped
  | .multiMatch query type fields options => .multiMatch query type fields options

/-- A tree that may be absent, with its own scope written out. -/
def tree? : Option Where → Option Where
  | none => none
  | some t => some (tree t)

/-- A tree with its own scope written out. -/
def tree : Where → Where
  | .all cs => .all (conditions cs)
  | .any bs => .any (branches bs)
  | .only c => .only (condition c)

/-- Conditions written out. -/
def conditions : List Condition → List Condition
  | [] => []
  | c :: cs => condition c :: conditions cs

/-- Branches written out. -/
def branches : List (List Condition) → List (List Condition)
  | [] => []
  | b :: bs => conditions b :: branches bs

end

mutual

theorem condition_twice : ∀ c, condition scope (condition scope c) = condition scope c
  | .is .. | .compare .. | .nested .. | .innerNested .. => by
    simp only [condition, Field.qualify_qualify]
  | .group _ wheres => by simp only [condition, tree?_twice wheres]
  | .multiMatch .. => rfl

theorem tree?_twice : ∀ t, tree? scope (tree? scope t) = tree? scope t
  | none => rfl
  | some t => by simp only [tree?, tree_twice t]

/-- A tree written out is not changed by writing it out again. -/
theorem tree_twice : ∀ t, tree scope (tree scope t) = tree scope t
  | .all cs => by simp only [tree, conditions_twice cs]
  | .any bs => by simp only [tree, branches_twice bs]
  | .only c => by simp only [tree, condition_twice c]

theorem conditions_twice : ∀ cs, conditions scope (conditions scope cs) = conditions scope cs
  | [] => rfl
  | c :: cs => by simp only [conditions, condition_twice c, conditions_twice cs]

theorem branches_twice : ∀ bs, branches scope (branches scope bs) = branches scope bs
  | [] => rfl
  | b :: bs => by simp only [branches, conditions_twice b, branches_twice bs]

end

end Qualified

namespace Searches

mutual

/-- A condition is a search in several fields, or holds one through groups. -/
def condition : Condition → Prop
  | .multiMatch .. => True
  | .group _ wheres => tree? wheres
  | .is .. | .compare .. | .nested .. | .innerNested .. => False

/-- A search in several fields lies in the own scope of a tree that may be absent. -/
def tree? : Option Where → Prop
  | none => False
  | some t => tree t

/-- A search in several fields lies in the own scope of a tree. -/
def tree : Where → Prop
  | .all cs => conditions cs
  | .any bs => branches bs
  | .only c => condition c

/-- Some of the conditions searches. -/
def conditions : List Condition → Prop
  | [] => False
  | c :: cs => condition c ∨ conditions cs

/-- Some condition of the branches searches. -/
def branches : List (List Condition) → Prop
  | [] => False
  | b :: bs => conditions b ∨ branches bs

end

mutual

theorem condition_qualified (scope : Option String) :
    ∀ c, condition (Qualified.condition scope c) ↔ condition c
  | .is .. | .compare .. | .nested .. | .innerNested .. | .multiMatch .. => Iff.rfl
  | .group _ wheres => by simp only [Qualified.condition, condition, tree?_qualified scope wheres]

theorem tree?_qualified (scope : Option String) :
    ∀ t, tree? (Qualified.tree? scope t) ↔ tree? t
  | none => Iff.rfl
  | some t => by simp only [Qualified.tree?, tree?, tree_qualified scope t]

/-- Writing out a tree adds no search to it and takes none away. -/
theorem tree_qualified (scope : Option String) : ∀ t, tree (Qualified.tree scope t) ↔ tree t
  | .all cs => by simp only [Qualified.tree, tree, conditions_qualified scope cs]
  | .any bs => by simp only [Qualified.tree, tree, branches_qualified scope bs]
  | .only c => by simp only [Qualified.tree, tree, condition_qualified scope c]

theorem conditions_qualified (scope : Option String) :
    ∀ cs, conditions (Qualified.conditions scope cs) ↔ conditions cs
  | [] => Iff.rfl
  | c :: cs => by
    simp only [Qualified.conditions, conditions, condition_qualified scope c,
      conditions_qualified scope cs]

theorem branches_qualified (scope : Option String) :
    ∀ bs, branches (Qualified.branches scope bs) ↔ branches bs
  | [] => Iff.rfl
  | b :: bs => by
    simp only [Qualified.branches, branches, conditions_qualified scope b,
      branches_qualified scope bs]

end

end Searches

/-! ## Compiling in a scope -/

namespace Compile

variable (env : Environment) (scope : Option String)

mutual

theorem condition_qualified : ∀ c, ¬ Searches.condition c →
    condition env none (Qualified.condition scope c) = condition env scope c
  | .is .., _ | .compare .., _ => by
    simp only [Qualified.condition, condition, Field.qualify_none]
  | .multiMatch .., h => absurd trivial h
  | .group _ wheres, h => by
    simp only [Qualified.condition, condition, tree?_qualified wheres h]
  | .nested .., _ | .innerNested .., _ => by
    simp only [Qualified.condition, condition, Field.qualify_none]

theorem tree?_qualified : ∀ t, ¬ Searches.tree? t →
    tree? env none (Qualified.tree? scope t) = tree? env scope t
  | none, _ => rfl
  | some t, h => by simp only [Qualified.tree?, tree?, tree_qualified t h]

/-- Without a search of its own, a tree compiles in a scope as it does at the root when written
out: to the same query or the same failure, with the same effects. -/
theorem tree_qualified : ∀ t, ¬ Searches.tree t →
    tree env none (Qualified.tree scope t) = tree env scope t
  | .all cs, h => by simp only [Qualified.tree, tree, conditions_qualified cs h]
  | .any bs, h => by simp only [Qualified.tree, tree, branches_qualified bs h]
  | .only c, h => by simp only [Qualified.tree, tree, condition_qualified c h]

theorem conditions_qualified : ∀ cs, ¬ Searches.conditions cs →
    conditions env none (Qualified.conditions scope cs) = conditions env scope cs
  | [], _ => rfl
  | c :: cs, h => by
    obtain ⟨hc, hcs⟩ := not_or.1 h
    simp only [Qualified.conditions, conditions, condition_qualified c hc,
      conditions_qualified cs hcs]

theorem branches_qualified : ∀ bs, ¬ Searches.branches bs →
    branches env none (Qualified.branches scope bs) = branches env scope bs
  | [], _ => rfl
  | b :: bs, h => by
    obtain ⟨hb, hbs⟩ := not_or.1 h
    simp only [Qualified.branches, branches, conditions_qualified b hb, branches_qualified bs hbs]

end

/-! ## Searches below the root -/

mutual

theorem not_ok_condition (hscope : isRoot scope = false) :
    ∀ c, Searches.condition c → ∀ q, (condition env scope c).result ≠ .ok q
  | .multiMatch .., _, q, h => by
    simp [condition, multiMatch, hscope] at h
  | .group _ wheres, hs, q, h => by
    simp only [condition, Outcome.result_bind_ok_iff] at h
    obtain ⟨q', hq, -⟩ := h
    exact not_ok_tree? hscope wheres hs q' hq
  | .is .., hs, _, _ | .compare .., hs, _, _ | .nested .., hs, _, _ | .innerNested .., hs, _, _ =>
    hs.elim

theorem not_ok_tree? (hscope : isRoot scope = false) :
    ∀ t, Searches.tree? t → ∀ q, (tree? env scope t).result ≠ .ok q
  | none, hs, _, _ => hs.elim
  | some t, hs, q, h => not_ok_tree hscope t hs q h

/-- Below the root a tree with a search of its own never compiles. -/
theorem not_ok_tree (hscope : isRoot scope = false) :
    ∀ t, Searches.tree t → ∀ q, (tree env scope t).result ≠ .ok q
  | .all cs, hs, q, h => by
    simp only [tree, Outcome.result_bind_ok_iff] at h
    obtain ⟨qs, hqs, -⟩ := h
    exact not_ok_conditions hscope cs hs qs hqs
  | .any bs, hs, q, h => by
    simp only [tree, Outcome.result_bind_ok_iff] at h
    obtain ⟨qs, hqs, -⟩ := h
    exact not_ok_branches hscope bs hs qs hqs
  | .only c, hs, q, h => not_ok_condition hscope c hs q h

theorem not_ok_conditions (hscope : isRoot scope = false) :
    ∀ cs, Searches.conditions cs → ∀ qs, (conditions env scope cs).result ≠ .ok qs
  | [], hs, _, _ => hs.elim
  | c :: cs, hs, qs, h => by
    simp only [conditions, Outcome.result_bind_ok_iff] at h
    obtain ⟨q, hq, qs', hqs, -⟩ := h
    exact hs.elim (fun hc => not_ok_condition hscope c hc q hq)
      fun hcs => not_ok_conditions hscope cs hcs qs' hqs

theorem not_ok_branches (hscope : isRoot scope = false) :
    ∀ bs, Searches.branches bs → ∀ qs, (branches env scope bs).result ≠ .ok qs
  | [], hs, _, _ => hs.elim
  | b :: bs, hs, qs, h => by
    simp only [branches, Outcome.result_bind_ok_iff] at h
    obtain ⟨qs₁, hb, more, hbs, -⟩ := h
    exact hs.elim (fun hb' => not_ok_conditions hscope b hb' qs₁ hb)
      fun hbs' => not_ok_branches hscope bs hbs' more hbs

end

end Compile

namespace Where

/-- **The scope law.** A typed tree without a search in its own scope compiles in a scope exactly
as the tree written out compiles at the root, result, failure and effects alike; and written out it
compiles the same in the scope. A tree with a search in its own scope compiles in no scope but the
root. -/
theorem compile_qualified (env : Environment) (scope : Option String) (t : Where) :
    (¬ Searches.tree t →
      compile env scope (.tree t) = compile env none (.tree (Qualified.tree scope t)) ∧
        compile env scope (.tree (Qualified.tree scope t)) =
          compile env none (.tree (Qualified.tree scope t))) ∧
    (Compile.isRoot scope = false → Searches.tree t →
      ∀ q, (compile env scope (.tree t)).result ≠ .ok q) := by
  simp only [compile_tree]
  refine ⟨fun h => ⟨(Compile.tree_qualified env scope t h).symm, ?_⟩,
    fun hscope h => Compile.not_ok_tree env scope hscope t h⟩
  have h' : ¬ Searches.tree (Qualified.tree scope t) := mt (Searches.tree_qualified scope t).1 h
  calc Compile.tree env scope (Qualified.tree scope t)
    _ = Compile.tree env none (Qualified.tree scope (Qualified.tree scope t)) :=
      (Compile.tree_qualified env scope _ h').symm
    _ = Compile.tree env none (Qualified.tree scope t) := by rw [Qualified.tree_twice]

/-- A group with a nested condition in it is written out down to the path of the nested condition,
and a search in a group is refused. -/
theorem compile_qualified_comments :
    let t : Where := .only (.group .must (some (.all [.is "author" (.str "x"),
      .nested "replies" (some (.only (.is "author" (.str "y")))) "avg" true])))
    let written : Where := .only (.group .must (some (.all [.is "comments.author" (.str "x"),
      .nested "comments.replies" (some (.only (.is "author" (.str "y")))) "avg" true])))
    let search : Where := .only (.group .must (some (.only (.multiMatch (.str "x") "phrase" [] []))))
    (compile {} (some "comments") (.tree t) = compile {} none (.tree written) ∧
      compile {} (some "comments") (.tree written) = compile {} none (.tree written)) ∧
      ∀ q, (compile {} (some "comments") (.tree search)).result ≠ .ok q := by
  intro t written search
  have hw : Qualified.tree (some "comments") t = written := rfl
  have ht : ¬ Searches.tree t := by simp [t, Searches.tree, Searches.condition, Searches.tree?,
    Searches.conditions]
  have hs : Searches.tree search := trivial
  exact ⟨hw ▸ (compile_qualified {} (some "comments") t).1 ht,
    (compile_qualified {} (some "comments") search).2 (by decide) hs⟩

end Where

end SearchRequest
