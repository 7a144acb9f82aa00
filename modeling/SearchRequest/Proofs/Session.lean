import Mathlib.Data.List.DropRight
import Mathlib.Data.List.Forall2
import SearchRequest.Proofs.Document
import SearchRequest.Proofs.Entries
import SearchRequest.Proofs.InPlace
/-
Sessions on one context. Whatever is done with it, in any order and any number of times, nothing
that was registered is lost, doubled or moved: `Session.conserves`. Compiles that fail count with
what they registered up to their failure, and the passes are those on documents whose body is a
mapping or absent.
-/
namespace SearchRequest.Session

/-- What can be done with a context. -/
inductive Op
  | addClause (clause : Value)
  | setFunction (function : Value)
  | stash (values : Value)
  | compileTree (scope : Option String) (v : Value)
  | compileCondition (scope : Option String) (v : Value)
  | compileOptions (write : Bool) (v : Value)
  | compileNested (path : String) (v : Value)
  | takeClauses
  | takeFunction
  | wrapClauses (d : Document)
  | wrapFunction (d : Document)
  | wrap (d : Document)

/-- What comes back. -/
inductive Answer
  | done (r : Except Misuse Unit)
  | query (r : Except Error Query)
  | options (r : Except Error CompiledOptions)
  | entries (r : Except Error Entries)
  | clauses (clauses : List Value)
  | function (function : Rows)
  | document (r : Except Misuse Value)

/-- A registration that may be refused; then the registry stays what it was. -/
def attempt (r : Registry) : Except Misuse Registry → Answer × Registry
  | .ok r' => (.done (.ok ()), r')
  | .error m => (.done (.error m), r)

/-- One operation on the registry of a context. -/
def step (env : Environment) (op : Op) (r : Registry) : Answer × Registry :=
  match op with
  | .addClause clause => (.done (.ok ()), r.addClause clause)
  | .setFunction function => attempt r (r.setFunction function)
  | .stash values => attempt r ((values.rows.bind stashable).map r.stashAll)
  | .compileTree scope v => ((InPlace.ofTree env scope v).on r).map .query id
  | .compileCondition scope v => ((InPlace.ofCondition env scope v).on r).map .query id
  | .compileOptions write v => ((InPlace.options env write v).on r).map .options id
  | .compileNested path v => ((InPlace.nestedOptions env path v).on r).map .entries id
  | .takeClauses => r.takeClauses.map .clauses id
  | .takeFunction => r.takeFunction.map .function id
  | .wrapClauses d => (Params.wrapClauses d.value r).map .document id
  | .wrapFunction d => (Params.wrapFunction d.value r).map .document id
  | .wrap d => (Params.wrap d.value r).map .document id

/-- An operation and its answer. -/
structure Turn where
  op : Op
  answer : Answer

end Session

/-- A session so far: the turns, and what is held after them. -/
structure Session where
  turns : List Session.Turn := []
  held : Registry := {}

namespace Session

/-- The session with one more operation. -/
def next (env : Environment) (s : Session) (op : Op) : Session :=
  let (answer, held) := step env op s.held
  ⟨s.turns ++ [⟨op, answer⟩], held⟩

/-- The session of some operations on a new context. -/
def run (env : Environment) (ops : List Op) : Session :=
  ops.foldl (next env) {}

theorem run_concat (env : Environment) (ops : List Op) (op : Op) :
    run env (ops ++ [op]) = next env (run env ops) op := by
  rw [run, List.foldl_append]; rfl

/-! ## What an operation registers and takes -/

namespace Op

/-- What an operation registers. -/
def additions (env : Environment) : Op → Additions
  | addClause clause => { clauses := [clause] }
  | setFunction function => { function := function.rows.toOption }
  | stash values => { stashed := (values.rows.bind stashable).toOption.getD [] }
  | compileTree scope v => (Where.compile env scope v).effects.additions
  | compileCondition scope v => (Condition.compile env scope v).effects.additions
  | compileOptions write v => (Options.compile env write v).effects.additions
  | compileNested path v => (Options.compileNested env path v).effects.additions
  | takeClauses | takeFunction | wrapClauses _ | wrapFunction _ | wrap _ => {}

/-- Whether an operation takes the filter clauses. -/
def takesClauses : Op → Bool
  | takeClauses | wrapClauses _ | wrap _ => true
  | _ => false

/-- Whether an operation takes the scoring function. -/
def takesFunction : Op → Bool
  | takeFunction | wrapFunction _ | wrap _ => true
  | _ => false

/-- What an operation leaves of a registry, apart from what it registers. -/
def leaves (op : Op) (r : Registry) : Registry where
  clauses := if op.takesClauses then [] else r.clauses
  function := if op.takesFunction then [] else r.function
  stash := r.stash

theorem additions_of_takesFunction {op : Op} (h : op.takesFunction = true) (env : Environment) :
    (op.additions env).function = none := by
  cases op <;> first | rfl | cases h

end Op

/-- The clauses that an operation hands out in its answer: as a list, or inside a document. -/
inductive HandsOut : Turn → List Value → Prop
  | taken (clauses : List Value) : HandsOut ⟨.takeClauses, .clauses clauses⟩ clauses
  | wrapped (d : Document) (clauses : List Value) :
    HandsOut ⟨.wrapClauses d, .document (.ok (d.inClauses clauses).value)⟩ clauses
  | wrappedWithFunction (d : Document) (clauses : List Value) (function : Rows) :
    HandsOut ⟨.wrap d, .document (.ok ((d.inClauses clauses).inFunction function).value)⟩ clauses
  | nothing {t : Turn} (h : t.op.takesClauses = false) : HandsOut t []

/-! ## One operation -/

/-- After one operation the registry holds what the operation leaves, with what it registers. -/
theorem step_held (env : Environment) (op : Op) (r : Registry) :
    (step env op r).2 = (op.leaves r).add (op.additions env) := by
  have hcompiled {α : Type} {p : InPlace α} {c : Compiled α} (h : InPlace.Adds p c)
      (f : Except Error α → Answer) : ((p.on r).map f id).2 = r.add c.effects.additions := by
    rw [h.on_eq]; rfl
  cases op with
  -- Registrations and compiles take nothing.
  | addClause clause => rfl
  | setFunction function =>
    change (attempt r (r.setFunction function)).2 = r.add { function := function.rows.toOption }
    cases h : function.rows with
    | ok rows => simp [Registry.setFunction, h, attempt, Except.map, Except.toOption, Registry.add]
    | error m => simp [Registry.setFunction, h, attempt, Except.map, Except.toOption, Registry.add]
  | stash values =>
    change (attempt r ((values.rows.bind stashable).map r.stashAll)).2 =
      r.add { stashed := (values.rows.bind stashable).toOption.getD [] }
    cases values.rows.bind stashable with
    | ok es => simp [attempt, Except.map, Except.toOption, Registry.add, Registry.stashAll]
    | error m => simp [attempt, Except.map, Except.toOption, Registry.add]
  | compileTree scope v => exact hcompiled (InPlace.adds_ofTree env scope v) .query
  | compileCondition scope v => exact hcompiled (InPlace.adds_ofCondition env scope v) .query
  | compileOptions write v => exact hcompiled (InPlace.adds_options env write v) .options
  | compileNested path v => exact hcompiled (InPlace.adds_nestedOptions env path v) .entries
  -- What takes something registers nothing.
  | takeClauses | takeFunction => exact (Registry.add_nothing _).symm
  | wrapClauses d =>
    simp only [step, Document.wrapClauses_value]
    exact (Registry.add_nothing _).symm
  | wrapFunction d =>
    simp only [step, Document.wrapFunction_value]
    exact (Registry.add_nothing _).symm
  | wrap d =>
    simp only [step, Document.wrap_value]
    exact (Registry.add_nothing _).symm

/-- An operation that takes the clauses hands out all that are held. -/
theorem step_handsOut (env : Environment) (op : Op) (r : Registry) :
    HandsOut ⟨op, (step env op r).1⟩ (if op.takesClauses then r.clauses else []) := by
  cases op with
  | takeClauses => exact .taken r.clauses
  | wrapClauses d =>
    simp only [step, Document.wrapClauses_value]
    exact .wrapped d r.clauses
  | wrap d =>
    simp only [step, Document.wrap_value]
    exact .wrappedWithFunction d r.clauses r.function
  | _ => exact .nothing rfl

/-! ## Whole sessions -/

/-- The last function registered by some operations. -/
def lastFunction (env : Environment) (ops : List Op) : Option Rows :=
  (ops.filterMap fun op => (op.additions env).function).getLast?

theorem lastFunction_concat (env : Environment) (ops : List Op) (op : Op) :
    lastFunction env (ops ++ [op]) = (op.additions env).function.or (lastFunction env ops) := by
  cases h : (op.additions env).function <;> simp [lastFunction, h]

/-- A session keeps account of all that its operations register. -/
structure Conserves (env : Environment) (ops : List Op) (s : Session) : Prop where
  turns : s.turns.map Turn.op = ops
  /-- The clauses handed out, and then those still held, are all that were registered, in order. -/
  clauses : ∃ handed : List (List Value), List.Forall₂ HandsOut s.turns handed ∧
    handed.flatten ++ s.held.clauses = ops.flatMap fun op => (op.additions env).clauses
  /-- The function held is the last one registered since one was taken. -/
  function : s.held.function =
    (lastFunction env (ops.rtakeWhile fun op => !op.takesFunction)).getD []
  stash : s.held.stash = Entries.overlay [] (ops.flatMap fun op => (op.additions env).stashed)
  /-- A key of the metadata stays from the moment it is there. -/
  keys : ∀ before, before <+: ops →
    Entries.keys (run env before).held.stash ⊆ Entries.keys s.held.stash

/-- One more operation keeps account. -/
theorem Conserves.step {env : Environment} {ops : List Op} (h : Conserves env ops (run env ops))
    (op : Op) : Conserves env (ops ++ [op]) (run env (ops ++ [op])) := by
  have hheld : (run env (ops ++ [op])).held =
      (op.leaves (run env ops).held).add (op.additions env) := by
    rw [run_concat]; exact step_held env op _
  have hturns : (run env (ops ++ [op])).turns =
      (run env ops).turns ++ [⟨op, (Session.step env op (run env ops).held).1⟩] := by
    rw [run_concat]; rfl
  have hstash : (run env (ops ++ [op])).held.stash =
      Entries.overlay (run env ops).held.stash (op.additions env).stashed := by
    rw [hheld]; rfl
  refine ⟨?turns, ?clauses, ?function, ?stash, ?keys⟩
  case turns =>
    rw [hturns, List.map_append, h.turns]; rfl
  case clauses =>
    obtain ⟨handed, hout, hall⟩ := h.clauses
    let taken := if op.takesClauses then (run env ops).held.clauses else []
    refine ⟨handed ++ [taken], ?_, ?_⟩
    · rw [hturns]
      exact List.rel_append hout (.cons (step_handsOut env op _) .nil)
    · rw [hheld, List.flatMap_append, ← hall]
      cases htakes : op.takesClauses <;> simp [taken, htakes, Registry.add, Op.leaves]
  case function =>
    rw [hheld]
    cases htakes : op.takesFunction with
    | true =>
      have hnone := op.additions_of_takesFunction htakes env
      simp [Registry.add, Op.leaves, htakes, hnone, lastFunction]
    | false =>
      rw [List.rtakeWhile_concat_pos _ _ _ (by simp [htakes]), lastFunction_concat,
        Option.getD_or, ← h.function]
      simp [Registry.add, Op.leaves, htakes]
  case stash =>
    rw [hstash, h.stash, List.flatMap_append, Entries.overlay_append, List.flatMap_singleton]
  case keys =>
    intro before hbefore
    rcases List.prefix_concat_iff.1 hbefore with rfl | hbefore
    · exact List.Subset.refl _
    · rw [hstash]
      exact List.Subset.trans (h.keys before hbefore) (Entries.keys_subset_overlay _ _)

/-- Every session on a new context keeps account of all that is registered in it. -/
theorem conserves (env : Environment) (ops : List Op) : Conserves env ops (run env ops) := by
  induction ops using List.reverseRecOn with
  | nil =>
    refine ⟨rfl, ⟨[], .nil, rfl⟩, rfl, rfl, ?_⟩
    rintro before hbefore
    rw [List.prefix_nil.1 hbefore]
    exact List.Subset.refl _
  | append_singleton ops op ih => exact ih.step op

end SearchRequest.Session
