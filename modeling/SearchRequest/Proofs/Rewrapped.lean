import SearchRequest.Proofs.Contents
import SearchRequest.Proofs.Rows
import SearchRequest.Proofs.Session
/-
Documents after the passes. What is registered goes around the query once: the filter clauses next to
the query that was there, and the scoring function outside of both. The rest of the document stays
what it was, a second run finds nothing to do, and it does not matter in which order clauses and
function were registered (`Params.wrap_rewraps`). Documents and bodies are mappings with any keys
here; `Document` has those whose keys are texts.
-/
namespace SearchRequest

/-! ## Rows laid on one after the other -/

namespace Rows

/-- No key is there twice. -/
def Distinct (rows : Rows) : Prop :=
  rows.Pairwise fun a b => a.1.same b.1 = false

theorem insert_of_new {k : Value} {rows : Rows} (h : ∀ r ∈ rows, r.1.same k = false) (v : Value) :
    insert k v rows = rows ++ [(k, v)] := by
  induction rows with
  | nil => rfl
  | cons r rows ih =>
    obtain ⟨hr, hrows⟩ := List.forall_mem_cons.1 h
    rw [insert, hr, ih hrows]
    rfl

/-- Rows with keys of their own go behind those that are there. -/
theorem foldl_insert_of_distinct {rows base : Rows} (h : Distinct (base ++ rows)) :
    rows.foldl (fun rows r => insert r.1 r.2 rows) base = base ++ rows := by
  induction rows generalizing base with
  | nil => simp
  | cons r rows ih =>
    have hnew : ∀ r' ∈ base, r'.1.same r.1 = false :=
      fun r' hr' => (List.pairwise_append.1 h).2.2 r' hr' r List.mem_cons_self
    -- The row that is laid on goes from the rows to the base, and the list of both stays the same.
    have hmoved : base ++ r :: rows = base ++ [r] ++ rows := by simp
    rw [List.foldl_cons, insert_of_new hnew, ih (hmoved ▸ h), hmoved]

/-- A row in front stays there while other keys are laid on. -/
theorem foldl_insert_cons {k : Value} {rows : Rows} (h : ∀ r ∈ rows, k.same r.1 = false) (v : Value)
    (base : Rows) : rows.foldl (fun rows r => insert r.1 r.2 rows) ((k, v) :: base) =
      (k, v) :: rows.foldl (fun rows r => insert r.1 r.2 rows) base := by
  induction rows generalizing base with
  | nil => rfl
  | cons r rows ih =>
    obtain ⟨hr, hrows⟩ := List.forall_mem_cons.1 h
    have hinsert : insert r.1 r.2 ((k, v) :: base) = (k, v) :: insert r.1 r.2 base := by
      simp [insert, hr]
    rw [List.foldl_cons, hinsert, ih hrows, List.foldl_cons]

end Rows

namespace Params

/-! ## Queries inside what is registered -/

/-- The query that a body asks for. One that is missing or counts as absent matches everything. -/
inductive AskedBy (body : Value) : Value → Prop
  | held {q : Value} (h : body.under? "query" = some q) (hq : q.truthy = true) : AskedBy body q
  | missing (h : ∀ q, body.under? "query" = some q → q.truthy = false) :
    AskedBy body (.entry "match_all" (.object []))

/-- A query next to filter clauses, and unchanged. A single clause stands alone, several form a
list. -/
inductive FilteredBy (q : Value) : List Value → Value → Prop
  | none : FilteredBy q [] q
  | single (clause : Value) :
    FilteredBy q [clause] (.entry "bool" (.object [("must", .list [q]), ("filter", clause)]))
  | several {clauses : List Value} (h : 2 ≤ clauses.length) :
    FilteredBy q clauses (.entry "bool" (.object [("must", .list [q]), ("filter", .list clauses)]))

/-- A query inside a scoring function, and unchanged. What the function has beside it stays. -/
inductive ScoredBy (q : Value) : Rows → Value → Prop
  | none : ScoredBy q [] q
  | function {function : Rows} {scored : Value} (hne : function ≠ [])
      (hquery : scored.under? "query" = some q)
      (hrows : function.Distinct → scored.mapping? = some ((.str "query", q) :: function)) :
    ScoredBy q function (.entry "function_score" scored)

/-- A body whose query went into what was registered. -/
structure RewrappedBody (r : Registry) (body body' : Value) : Prop where
  others : body'.without "query" = body.without "query"
  query : ∃ q filtered scored, AskedBy body q ∧ FilteredBy q r.clauses filtered ∧
    ScoredBy filtered r.function scored ∧ body'.under? "query" = some scored

/-- The body of a document; one that is absent is empty. -/
def body (params : Value) : Value :=
  (params.under? "body").getD (.object [])

/-- A document whose query went into what was registered. -/
structure Rewrapped (r : Registry) (params params' : Value) : Prop where
  others : params'.without "body" = params.without "body"
  body : ∃ body', params'.under? "body" = some body' ∧ RewrappedBody r (body params) body'

theorem askedBy_currentQuery (body : Value) : AskedBy body (currentQuery (body.under? "query")) := by
  cases h : body.under? "query" with
  | none => exact .missing fun q hq => nomatch h.symm.trans hq
  | some q =>
    cases hq : q.truthy with
    | true =>
      simp only [currentQuery, hq, if_true]
      exact .held h hq
    | false =>
      simp only [currentQuery, hq, Bool.false_eq_true, if_false]
      refine .missing fun q' hq' => ?_
      cases h.symm.trans hq'
      exact hq

theorem filteredBy (clauses : List Value) (q : Value) :
    FilteredBy q clauses (if clauses.isEmpty then q else withClauses clauses q) := by
  match clauses with
  | [] => exact .none
  | [clause] => exact .single clause
  | _ :: _ :: _ => exact .several (by simp)

theorem scoredBy {function : Rows} (h : Rows.under? "query" function = none) (q : Value) :
    ScoredBy q function (if function.isEmpty then q else withFunction function q) := by
  cases hempty : function.isEmpty with
  | true =>
    rw [List.isEmpty_iff.1 hempty]
    exact .none
  | false =>
    have hnew : ∀ r ∈ function, (Value.str "query").same r.1 = false :=
      Rows.str_same_of_under?_none h
    have hlaid := Rows.foldl_insert_cons hnew q []
    refine .function (fun hnil => by simp [hnil] at hempty) ?query fun hdistinct => ?rows
    case query =>
      rw [hlaid, Value.under?_toValue]
      simp [Rows.under?]
    case rows =>
      have hown : function.foldl (fun rows r => Rows.insert r.1 r.2 rows) [] = function :=
        Rows.foldl_insert_of_distinct hdistinct
      rw [hlaid, hown, Value.mapping?_toValue]

/-! ## Documents -/

/-- A document with another query. -/
def withQuery (params q : Value) : Value :=
  params.put "body" ((body params).put "query" q)

section
variable {params : Value} (hparams : params.isMapping = true)
include hparams

theorem isMapping_withQuery (q : Value) : (withQuery params q).isMapping = true :=
  Value.isMapping_put hparams _ _

theorem body_withQuery (q : Value) : body (withQuery params q) = (body params).put "query" q := by
  rw [body, withQuery, Value.under?_put hparams]
  rfl

variable (hbody : (body params).isMapping = true)
include hbody

theorem mapQuery_withQuery (f : Value → Value) : mapQuery f params =
    .ok (withQuery params (f (currentQuery ((body params).under? "query")))) := by
  unfold body at hbody
  simp only [mapQuery, hparams, hbody, Bool.and_self, if_true]
  rfl

theorem withQuery_withQuery (q q' : Value) :
    withQuery (withQuery params q) q' = withQuery params q' := by
  rw [withQuery, body_withQuery hparams, Value.put_put hbody, withQuery, Value.put_put hparams]
  rfl

/-- A pass puts its query in the place of the one that the pass before it has put there. -/
theorem mapQuery_twice (f : Value → Value) {q : Value} (hq : q.truthy = true) :
    mapQuery f (withQuery params q) = .ok (withQuery params (f q)) := by
  have hfirst := body_withQuery hparams q
  have hsecond : (body (withQuery params q)).isMapping = true := by
    rw [hfirst]
    exact Value.isMapping_put hbody "query" q
  have hcurrent : currentQuery ((body (withQuery params q)).under? "query") = q := by
    rw [hfirst, Value.under?_put hbody]
    simp only [currentQuery, hq, if_true]
  rw [mapQuery_withQuery (isMapping_withQuery hparams q) hsecond, hcurrent,
    withQuery_withQuery hparams hbody]

theorem rewrapped_withQuery {r : Registry} (hfunction : Rows.under? "query" r.function = none) :
    Rewrapped r params
      (withQuery params (r.around (currentQuery ((body params).under? "query")))) :=
  { others := Value.without_put hparams _ _
    body := ⟨_, Value.under?_put hparams _ _,
      { others := Value.without_put hbody _ _
        query := ⟨_, _, _, askedBy_currentQuery _, filteredBy r.clauses _, scoredBy hfunction _,
          Value.under?_put hbody _ _⟩ }⟩ }

/-! ## Passes -/

/-- The pass for clauses, and the pass for the function after it. -/
theorem passes (r : Registry) : ∃ params₁,
    wrapClauses params r = (.ok params₁, { r with clauses := [] }) ∧
    wrapFunction params₁ { r with clauses := [] } =
      (.ok (if r.clauses.isEmpty && r.function.isEmpty then params
        else withQuery params (r.around (currentQuery ((body params).under? "query")))),
        { r with clauses := [], function := [] }) := by
  -- What the first pass writes counts as present, so the second pass takes it as the query.
  have hwithClauses (q : Value) : (withClauses r.clauses q).truthy = true := rfl
  cases hc : r.clauses.isEmpty with
  | true =>
    refine ⟨params, by simp [wrapClauses, Registry.takeClauses, hc], ?_⟩
    cases hf : r.function.isEmpty <;>
      simp [wrapFunction, Registry.takeFunction, Registry.around, hc, hf,
        mapQuery_withQuery hparams hbody]
  | false =>
    refine ⟨withQuery params (withClauses r.clauses (currentQuery ((body params).under? "query"))),
      by simp [wrapClauses, Registry.takeClauses, hc, mapQuery_withQuery hparams hbody], ?_⟩
    cases hf : r.function.isEmpty <;>
      simp [wrapFunction, Registry.takeFunction, Registry.around, hc, hf,
        mapQuery_twice hparams hbody _ (hwithClauses _)]

end

/-- With nothing registered no pass changes anything. -/
theorem wrap_nothing (params : Value) {r : Registry} (hclauses : r.clauses = [])
    (hfunction : r.function = []) : wrap params r = (.ok params, r) := by
  obtain ⟨_, _, stash⟩ := r
  cases hclauses
  cases hfunction
  rfl

end Params

namespace Session

/-- Operations that take nothing out of the registry. -/
def OnlyRegister (ops : List Op) : Prop :=
  ∀ op ∈ ops, op.takesClauses = false ∧ op.takesFunction = false

/-- After operations that take nothing, all clauses are held in order, and the last function. -/
theorem held_of_onlyRegister (env : Environment) {ops : List Op} (h : OnlyRegister ops) :
    (run env ops).held.clauses = ops.flatMap (fun op => (op.additions env).clauses) ∧
    (run env ops).held.function = (lastFunction env ops).getD [] := by
  induction ops using List.reverseRecOn with
  | nil => exact ⟨rfl, rfl⟩
  | append_singleton ops op ih =>
    obtain ⟨hclauses, hfunction⟩ := ih fun op' hop' => h op' (List.mem_append_left _ hop')
    obtain ⟨hkeepsClauses, hkeepsFunction⟩ := h op (by simp)
    have hheld : (run env (ops ++ [op])).held =
        (op.leaves (run env ops).held).add (op.additions env) := by
      rw [run_concat]
      exact step_held env op _
    constructor
    · simp [hheld, Registry.add, Op.leaves, hkeepsClauses, hclauses]
    · rw [hheld, lastFunction_concat, Option.getD_or, ← hfunction]
      simp [Registry.add, Op.leaves, hkeepsFunction]

end Session

namespace Params

/-- **The passes put what is registered around the query once, and touch nothing else.** On a document
whose body is absent or a mapping they succeed and empty the registry. With nothing registered the
document stays what it is. Otherwise only its query changes, into one that holds the query as it was
next to the clauses, and both inside the function. Running the passes again changes nothing, one pass
after the other does the same, and so does every session that has registered these clauses and this
function, in whichever order it did. -/
theorem wrap_rewraps {params : Value} (hparams : params.isMapping = true)
    (hbody : ∀ body, params.under? "body" = some body → body.isMapping = true) {r : Registry}
    (hfunction : Rows.under? "query" r.function = none) :
    ∃ params', wrap params r = (.ok params', { r with clauses := [], function := [] }) ∧
      (r.clauses = [] ∧ r.function = [] → params' = params) ∧
      (r.clauses ≠ [] ∨ r.function ≠ [] → Rewrapped r params params') ∧
      wrap params' { r with clauses := [], function := [] } =
        (.ok params', { r with clauses := [], function := [] }) ∧
      (∃ params₁ r₁, wrapClauses params r = (.ok params₁, r₁) ∧
        wrapFunction params₁ r₁ = (.ok params', { r with clauses := [], function := [] })) ∧
      ∀ env ops, Session.OnlyRegister ops →
        ops.flatMap (fun op => (op.additions env).clauses) = r.clauses →
        (Session.lastFunction env ops).getD [] = r.function →
          (wrap params (Session.run env ops).held).1 = .ok params' := by
  have hmapping : (body params).isMapping = true := by
    rw [body]
    cases h : params.under? "body" with
    | none => rfl
    | some b => exact hbody b h
  obtain ⟨params₁, hfirst, hsecond⟩ := passes hparams hmapping r
  have hwrap : wrap params r = wrapFunction params₁ { r with clauses := [] } := by
    rw [wrap, hfirst]
  refine ⟨_, hwrap.trans hsecond, ?nothing, ?something, wrap_nothing _ rfl rfl,
    ⟨_, _, hfirst, hsecond⟩, ?sessions⟩
  case nothing =>
    rintro ⟨hclauses, hnone⟩
    simp [hclauses, hnone]
  case something =>
    intro h
    have hregistered : (r.clauses.isEmpty && r.function.isEmpty) = false := by
      rw [Bool.and_eq_false_iff, List.isEmpty_eq_false_iff, List.isEmpty_eq_false_iff]
      exact h
    rw [hregistered, if_neg (by simp)]
    exact rewrapped_withQuery hparams hmapping hfunction
  case sessions =>
    intro env ops hops hclauses hlast
    obtain ⟨hheld, hheldFunction⟩ := Session.held_of_onlyRegister env hops
    rw [wrap_congr (hheld.trans hclauses) (hheldFunction.trans hlast), hwrap, hsecond]

/-- Two clauses and a function around the query of a document, with the function registered between
the clauses. -/
theorem wrap_rewraps_books :
    let params : Value := .object [("index", .str "books"), ("body", .object
      [("query", .entry "match" (.entry "a" (.int 1))), ("sort", .list [.entry "year" (.str "desc")])])]
    let box : Value := .entry "geo_bounding_box" (.entry "place" (.object []))
    let point : Value := .entry "geo_distance" (.entry "distance" (.str "5km"))
    let function : Entries := [("random_score", .entry "field" (.str "_seq_no"))]
    let r : Registry := { clauses := [box, point], function := Rows.ofEntries function }
    params.isMapping = true ∧ (∀ body, params.under? "body" = some body → body.isMapping = true) ∧
      Rows.under? "query" r.function = none ∧
      ∃ params', wrap params r = (.ok params', {}) ∧ Rewrapped r params params' ∧
        (wrap params (Session.run {} [.addClause box, .setFunction (.object function),
          .addClause point]).held).1 = .ok params' := by
  intro params box point function r
  have hbody : ∀ body, params.under? "body" = some body → body.isMapping = true := by
    intro body hbody
    cases hbody
    rfl
  obtain ⟨params', hwrap, -, hrewrapped, -, -, hsessions⟩ := wrap_rewraps (r := r) rfl hbody rfl
  have hregister : Session.OnlyRegister
      [.addClause box, .setFunction (.object function), .addClause point] := by
    simp [Session.OnlyRegister, Session.Op.takesClauses, Session.Op.takesFunction]
  exact ⟨rfl, hbody, rfl, params', hwrap, hrewrapped (.inl (by simp [r])),
    hsessions {} _ hregister rfl rfl⟩

example : wrap (.object []) { clauses := [.entry "geo_distance" (.entry "distance" (.str "5km"))] } =
    (.ok (.entry "body" (.entry "query" (.entry "bool" (.object
      [("must", .list [.entry "match_all" (.object [])]),
        ("filter", .entry "geo_distance" (.entry "distance" (.str "5km")))])))), {}) := rfl

end Params

end SearchRequest
