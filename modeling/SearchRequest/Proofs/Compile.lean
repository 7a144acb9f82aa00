import SearchRequest.Proofs.Outcome
import SearchRequest.Request.Search
import SearchRequest.Where.Compile
/-
Compiling a value in two steps: it is read as a tree, which may fail, and the tree is compiled. A
typed tree is read as itself. A search clause is added to a tree between the two steps.
-/
namespace SearchRequest

namespace Where

theorem result_compile_ok_iff {env : Environment} {scope : Option String} {v : Value} {q : Query} :
    (compile env scope v).result = .ok q ↔
      ∃ t, (ofArgument v).result = .ok t ∧ (Compile.tree? env scope t).result = .ok q := by
  simp only [compile, Outcome.result_bind_ok_iff, Compile.ofParsed, Outcome.result_mapEffects]

/-- Compiling a typed tree reads nothing. -/
theorem compile_tree (env : Environment) (scope : Option String) (t : Where) :
    compile env scope (.tree t) = Compile.tree env scope t := by
  have h : (Compile.ofParsed (ofArgument (.tree t))).result = .ok (some t) := rfl
  rw [compile, Outcome.bind_ok h]
  exact congrArg (Outcome.mk · _) (Effects.empty_append _)

end Where

/-- Compiling a typed condition reads nothing. -/
theorem Condition.compile_condition (env : Environment) (scope : Option String) (c : Condition) :
    compile env scope (.condition c) = Compile.condition env scope c := by
  rw [compile]
  exact pure_bind c (Compile.condition env scope)

theorem Search.result_addTo_ok_iff {w v : Value} {t' : Where} :
    (addTo w v).result = .ok t' ↔
      ∃ t, (Where.ofArgument w).result = .ok t ∧ splice (clause v) t = t' := by
  simp [addTo, Outcome.result_bind_ok_iff]

end SearchRequest
