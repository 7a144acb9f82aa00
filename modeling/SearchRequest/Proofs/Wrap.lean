import SearchRequest.Options.Compile
import SearchRequest.Params
import SearchRequest.Proofs.Entries
/-
The query in the body of a document. Merging compiled options into the document leaves it alone
(`CompiledOptions.keepsQuery_params`), and wrapping changes it to the query inside all filter clauses
and inside the scoring function, in that order (`Params.wrap_ok`).
-/
namespace SearchRequest

/-! ## The query in a document -/

namespace Params

/-- The query in the body of a document. -/
def query? (params : Value) : Option Value :=
  match params with
  | .object es =>
    match Entries.find? "body" es with
    | some (.object body) => Entries.find? "query" body
    | _ => none
  | _ => none

theorem query?_eq_some {es : Entries} {q : Value} :
    query? (.object es) = some q ↔
      ∃ body, Entries.find? "body" es = some (.object body) ∧
        Entries.find? "query" body = some q := by
  simp only [query?]
  constructor
  · intro h
    split at h
    · exact ⟨_, ‹_›, h⟩
    · cases h
  · rintro ⟨body, hbody, hq⟩
    simp only [hbody, hq]

/-- An entry that leaves the query alone: what it puts into the body is a mapping without one. -/
def KeepsQuery (e : String × Value) : Prop :=
  e.1 = "body" → ∃ new, e.2 = .object new ∧ ∀ e' ∈ new, "query" ≠ e'.1

theorem query?_mergeEntry {es : Entries} {q : Value} {e : String × Value} (he : KeepsQuery e)
    (h : query? (.object es) = some q) : query? (.object (mergeEntry es e)) = some q := by
  obtain ⟨body, hbody, hq⟩ := query?_eq_some.1 h
  obtain ⟨k, v⟩ := e
  refine query?_eq_some.2 ?_
  by_cases hk : k = "body"
  · obtain ⟨new, rfl, hnew⟩ := he hk
    subst hk
    refine ⟨Entries.overlay body new, ?_, ?_⟩
    · simp [mergeEntry, hbody]
    · rw [Entries.find?_overlay_other hnew, hq]
  · refine ⟨body, ?_, hq⟩
    unfold mergeEntry
    split <;> rw [Entries.find?_insert_other (Ne.symm hk), hbody]

theorem query?_mergeEntries {fragment : Entries} (hf : ∀ e ∈ fragment, KeepsQuery e)
    {es : Entries} {q : Value} (h : query? (.object es) = some q) :
    query? (.object (mergeEntries es fragment)) = some q := by
  induction fragment generalizing es with
  | nil => exact h
  | cons e fragment ih =>
    exact ih (fun e' he' => hf e' (by simp [he'])) (query?_mergeEntry (hf e (by simp)) h)

theorem mapQuery_ok (f : Value → Value) {params q : Value} (h : query? params = some q)
    (hq : q.truthy = true) :
    ∃ params', mapQuery f params = .ok params' ∧ query? params' = some (f q) := by
  cases params with
  | object es =>
    obtain ⟨body, hbody, hbq⟩ := query?_eq_some.1 h
    let new := Entries.insert "query" (f q) body
    refine ⟨.object (Entries.insert "body" (.object new) es), ?_, ?_⟩
    · have hobject : (Entries.find? "body" es).getD (.object []) = .object body := by rw [hbody]; rfl
      simp [mapQuery_object f hobject, currentQuery, hbq, hq, new]
    · exact query?_eq_some.2 ⟨new, Entries.find?_insert_self .., Entries.find?_insert_self ..⟩
  | _ => cases h

end Params

namespace CompiledOptions

theorem keepsQuery_params (c : CompiledOptions) : ∀ e ∈ c.params, Params.KeepsQuery e := by
  have henvelope : ∀ e ∈ c.envelope, e.1 ≠ "body" := by
    intro e he
    simp only [envelope, List.mem_append] at he
    rcases he with (he | he) | he <;> rw [Entries.key_of_mem_ofOption he] <;> decide
  have hbody : ∀ e ∈ c.body, "query" ≠ e.1 := by
    intro e he
    simp only [body, List.mem_append] at he
    rcases he with ((he | he) | he) | he <;> rw [Entries.key_of_mem_ofOption he] <;> decide
  intro e he hk
  rcases List.mem_append.1 he with he | he
  · exact absurd hk (henvelope e he)
  · split at he
    · cases he
    · rw [List.mem_singleton.1 he]
      exact ⟨_, rfl, hbody⟩

end CompiledOptions

/-! ## Wrapping -/

namespace Params

/-- A query inside filter clauses: none change nothing, one stands alone, several form a list. -/
def filtered (clauses : List Value) (q : Value) : Value :=
  match clauses with
  | [] => q
  | [clause] => .entry "bool" (.object [("must", .list [q]), ("filter", clause)])
  | clauses => .entry "bool" (.object [("must", .list [q]), ("filter", .list clauses)])

/-- A query inside a random score. -/
def scored (score : Option RandomScore) (q : Value) : Value :=
  match score with
  | none => q
  | some r =>
    .entry "function_score" (.object [("query", q),
      ("random_score", .object [("field", .str r.column), ("seed", r.seed.toValue)])])

theorem truthy_filtered {q : Value} (hq : q.truthy = true) :
    ∀ clauses, (filtered clauses q).truthy = true
  | [] => hq
  | [_] | _ :: _ :: _ => rfl

theorem withFunction_score (r : RandomScore) (q : Value) :
    withFunction (Rows.ofEntries r.function) q = scored (some r) q := by
  have hkeys : Value.same (.str "query") (.str "random_score") = false := by
    simp [Value.same, Value.outline, Outline.same, Outline.text?]
  simp [withFunction, scored, RandomScore.function, Rows.ofEntries, Rows.insert, hkeys, Rows.toValue,
    Rows.entries?, Value.text?]

section
variable {params q : Value} (h : query? params = some q) (hq : q.truthy = true) (r : Registry)
include h hq

theorem wrapClauses_ok :
    ∃ params', (wrapClauses params r).1 = .ok params' ∧
      query? params' = some (filtered r.clauses q) := by
  obtain ⟨clauses, _, _⟩ := r
  match clauses with
  | [] => exact ⟨params, rfl, h⟩
  | [clause] => exact mapQuery_ok (withClauses [clause]) h hq
  | c :: c' :: cs => exact mapQuery_ok (withClauses (c :: c' :: cs)) h hq

theorem wrapFunction_ok {score : Option RandomScore}
    (hr : r.function = (score.map fun s => Rows.ofEntries s.function).getD []) :
    ∃ params', (wrapFunction params r).1 = .ok params' ∧ query? params' = some (scored score q) := by
  match score with
  | none =>
    refine ⟨params, ?_, h⟩
    simp [wrapFunction, Registry.takeFunction, hr]
  | some s =>
    obtain ⟨params', hp, hq'⟩ := mapQuery_ok (withFunction (Rows.ofEntries s.function)) h hq
    refine ⟨params', ?_, by rw [hq', withFunction_score]⟩
    have hf : r.function = Rows.ofEntries s.function := hr
    have hne : (Rows.ofEntries s.function).isEmpty = false := rfl
    simp only [wrapFunction, Registry.takeFunction, hf, hne, Bool.false_eq_true, if_false, hp]

/-- Wrapping puts the filter clauses around the query, and the score around both. -/
theorem wrap_ok {score : Option RandomScore}
    (hr : r.function = (score.map fun s => Rows.ofEntries s.function).getD []) :
    ∃ params', (wrap params r).1 = .ok params' ∧
      query? params' = some (scored score (filtered r.clauses q)) := by
  obtain ⟨params₁, h₁, hq₁⟩ := wrapClauses_ok h hq r
  obtain ⟨params₂, h₂, hq₂⟩ :=
    wrapFunction_ok hq₁ (truthy_filtered hq r.clauses) { r with clauses := [] } hr
  refine ⟨params₂, ?_, hq₂⟩
  have hstep : wrapClauses params r = (.ok params₁, { r with clauses := [] }) :=
    Prod.ext h₁ rfl
  simp only [wrap, hstep, h₂]

end

end Params

end SearchRequest
