import SearchRequest.Proofs.Compile
import SearchRequest.Proofs.Warnings
import SearchRequest.Request.Builder
/-
What calls log about the tree that they are given. Reading it logs the warnings that are due, and what
comes after the reading logs no more of them: options and requests have loggers of their own, and a
tree that is handed in again, as it is with every sub-tree of a condition, is taken as it is. So a
compile, a request and a search each warn once of every connective that is ignored
(`Where.warned_once`).

Trees are mappings as documents hold them: their keys are texts.
-/
namespace SearchRequest

open Reading

namespace Parse

/-- The records about trees in a log. -/
def recordsIn (log : List LogRecord) : List LogRecord :=
  log.filter (·.logger = logger)

theorem recordsIn_append (log log' : List LogRecord) :
    recordsIn (log ++ log') = recordsIn log ++ recordsIn log' :=
  List.filter_append ..

/-- Warnings that are due are records about trees. -/
theorem recordsIn_listed {part : Part} {log : List LogRecord} (h : Listed (Warns part) log) :
    recordsIn log = log := by
  obtain ⟨sites, rfl, -, hmem⟩ := h
  refine List.filter_eq_self.2 fun r hr => ?_
  obtain ⟨⟨p, r⟩, hsite, rfl⟩ := List.mem_map.1 hr
  obtain ⟨m, honored, ignored, -, -, rfl⟩ := (hmem p r).1 hsite
  exact decide_eq_true rfl

/-- Records of another logger are not about trees. -/
theorem recordsIn_cons_other {r : LogRecord} (h : r.logger ≠ logger) (log : List LogRecord) :
    recordsIn (r :: log) = recordsIn log :=
  List.filter_cons_of_neg (by simpa using h)

theorem effects_refused {v : Value} (h : Where.argument v ≠ .ok v) : (tree? v).effects = [] := by
  cases v with
  | object es =>
    cases es with
    | nil => rfl
    | cons => exact absurd rfl h
  | tree | condition => rfl
  | _ =>
    unfold tree?
    split <;> rfl

/-- Handing a value in as a tree logs what reading it does. -/
theorem effects_ofArgument (v : Value) : (Where.ofArgument v).effects = (tree? v).effects := by
  by_cases h : Where.argument v = .ok v
  · exact effects_check_ok _ h
  · rw [effects_refused h]
    cases hv : Where.argument v with
    | error e => exact effects_check_error _ hv
    | ok u =>
      have hu : u = .null := by
        unfold Where.argument at hv h
        grind
      subst hu
      exact effects_check_ok _ hv

end Parse

namespace Compile

/-- A compile logs these records about trees. -/
def Logs {α : Type} (c : Compiled α) (records : List LogRecord) : Prop :=
  Parse.recordsIn c.effects.log = records

section
variable {α β : Type} {x : Compiled α} {f : α → Compiled β} {records : List LogRecord}

theorem logs_bind_silent (hx : Logs x records) (hf : ∀ a, Logs (f a) []) : Logs (x >>= f) records := by
  cases hr : x.result with
  | error e =>
    rw [Outcome.bind_error hr]
    exact hx
  | ok a =>
    rw [Logs, Outcome.effects_bind_ok hr, Effects.log_append, Parse.recordsIn_append, hx, hf a,
      List.append_nil]

theorem logs_bind_ok {a : α} (ha : x.result = .ok a) (hx : Logs x []) (hf : Logs (f a) records) :
    Logs (x >>= f) records := by
  rw [Logs, Outcome.effects_bind_ok ha, Effects.log_append, Parse.recordsIn_append, hx, hf,
    List.nil_append]

theorem logs_map (hx : Logs x records) (g : α → β) : Logs (x >>= fun a => pure (g a)) records :=
  logs_bind_silent hx fun _ => rfl

end

/-! ## Options -/

theorem options_logger_ne : Options.logger ≠ Parse.logger := by decide

theorem logs_sortEntries (allowId : Bool) (es : Entries) :
    Logs (Sort.entries allowId Options.logger es) [] := by
  induction es with
  | nil => rfl
  | cons e es ih =>
    obtain ⟨field, payload⟩ := e
    unfold Sort.entries
    split
    · rfl
    · exact logs_map ih _
    · exact logs_bind_silent (Parse.recordsIn_cons_other options_logger_ne _) fun _ => ih

theorem logs_compileSort (env : Environment) (sort : Option Entries) :
    Logs (Options.compileSort env sort) [] := by
  match sort with
  | none => rfl
  | some es => exact logs_map (logs_sortEntries _ es) _

theorem logs_registered (o : Options Value) : Logs (.perform o.effects) [] := by
  have hregistered (text : String) : Parse.recordsIn [Options.registered text] = [] :=
    Parse.recordsIn_cons_other options_logger_ne _
  have hfilters : Parse.recordsIn ((o.filters.map GeoFilters.effects).getD ∅).log = [] := by
    match o.filters with
    | none | some ⟨none, none⟩ => rfl
    | some ⟨some _, none⟩ | some ⟨none, some _⟩ => exact hregistered _
    | some ⟨some _, some _⟩ =>
      exact (Parse.recordsIn_cons_other options_logger_ne _).trans (hregistered _)
  have hscore : Parse.recordsIn ((o.randomScore.map RandomScore.effects).getD ∅).log = [] := by
    cases o.randomScore with
    | none => rfl
    | some r => exact hregistered _
  rw [Logs, Outcome.effects_perform, Options.effects, Effects.log_append, Effects.log_append,
    Parse.recordsIn_append, Parse.recordsIn_append, hfilters, hscore]
  rfl

theorem logs_options (env : Environment) (write : Bool) (v : Value) :
    Logs (Options.compile env write v) [] :=
  logs_bind_silent rfl fun o => logs_bind_silent (logs_compileSort env o.sort) fun _ =>
    logs_map (logs_registered o) _

theorem logs_innerHits (env : Environment) (path : String) (o : Options Value)
    (ignoreUnmapped : Bool) : Logs (innerHits env path o ignoreUnmapped) [] :=
  logs_map (logs_map (logs_options env false _) _) _

/-! ## Trees -/

mutual

theorem logs_condition (env : Environment) (scope : Option String) :
    ∀ c, Logs (condition env scope c) []
  | .is .. | .compare .. | .multiMatch .. => rfl
  | .group _ wheres => logs_map (logs_tree? env scope wheres) _
  | .nested _ wheres _ true => logs_map (logs_tree? env none wheres) _
  | .nested _ wheres _ false => logs_map (logs_tree? env _ wheres) _
  | .innerNested _ wheres o _ _ =>
    logs_bind_silent (logs_innerHits env _ o _) fun _ => logs_map (logs_tree? env _ wheres) _

/-- A tree that was read is compiled without another warning. -/
theorem logs_tree? (env : Environment) (scope : Option String) : ∀ t, Logs (tree? env scope t) []
  | none => rfl
  | some t => logs_tree env scope t

theorem logs_tree (env : Environment) (scope : Option String) : ∀ t, Logs (tree env scope t) []
  | .all cs => logs_map (logs_conditions env scope cs) _
  | .any bs => logs_map (logs_branches env scope bs) _
  | .only c => logs_condition env scope c

theorem logs_conditions (env : Environment) (scope : Option String) :
    ∀ cs, Logs (conditions env scope cs) []
  | [] => rfl
  | c :: cs =>
    logs_bind_silent (logs_condition env scope c) fun _ => logs_map (logs_conditions env scope cs) _

theorem logs_branches (env : Environment) (scope : Option String) :
    ∀ bs, Logs (branches env scope bs) []
  | [] => rfl
  | b :: bs =>
    logs_bind_silent (logs_conditions env scope b) fun _ => logs_map (logs_branches env scope bs) _

end

end Compile

open Compile (Logs logs_map logs_bind_silent logs_bind_ok)

/-- The warnings of a reading are in the log of the call that it is a part of. -/
theorem Compile.logs_reading {α : Type} {p : Parsed α} {v : Value}
    (h : p.effects = (Parse.tree? v).effects) : Logs (ofParsed p) (Parse.tree? v).effects := by
  rw [Logs, ofParsed, Outcome.effects_mapEffects, h]
  exact Parse.recordsIn_listed (Parse.listed_tree? v)

/-- Compiling a value logs what reading it as a tree does. -/
theorem Where.logs_compile (env : Environment) (scope : Option String) (v : Value) :
    Logs (compile env scope v) (Parse.tree? v).effects :=
  logs_bind_silent (Compile.logs_reading (Parse.effects_ofArgument v)) (Compile.logs_tree? env scope)

/-! ## Requests -/

namespace Builder

theorem logs_stash (rows : Rows) : Logs (stash rows) [] := by
  unfold stash
  split
  · rfl
  · split <;> rfl

theorem logs_prepareOptions (v : Value) : Logs (prepareOptions v) [] := by
  unfold prepareOptions
  split
  · rfl
  · split
    · exact logs_map (logs_stash _) _
    · rfl
  · rfl

theorem logs_assemble (env : Environment) (allowRefresh : Bool) (heading body : Entries)
    (columns options : Value) : Logs (assemble env allowRefresh heading body columns options) [] :=
  logs_bind_silent rfl fun _ => logs_map (Compile.logs_options env allowRefresh options) _

theorem recordsIn_traced (s : Settings) (text : String) : Parse.recordsIn (traced s text) = [] := by
  unfold traced Log.record
  split
  · rfl
  · exact Parse.recordsIn_cons_other (by decide : logger ≠ Parse.logger) _

/-- A request logs what its compile does, and its own record. -/
theorem recordsIn_finish {s : Settings} {trace : String} {c : Compiled Entries}
    {records : List LogRecord} (h : Logs c records) :
    Parse.recordsIn (finish s trace c).effects = records := by
  unfold finish
  dsimp only
  split
  · exact h
  · split
    · exact h
    · rw [Parse.recordsIn_append, recordsIn_traced, List.append_nil]
      exact h

variable (b : Builder) (s : Settings) (index wheres columns id : Value) (allowRefresh : Bool)

theorem recordsIn_request {options o : Value} (ho : (prepareOptions options).result = .ok o) :
    Parse.recordsIn (b.request s index wheres options columns id allowRefresh).effects =
      (Parse.tree? wheres).effects :=
  recordsIn_finish <| logs_bind_ok ho (logs_prepareOptions options) <|
    logs_bind_silent (Where.logs_compile _ none wheres) fun _ => logs_assemble ..

theorem recordsIn_search {query fields searchOptions options o : Value} {so ps : Entries}
    (hso : (prepareOptions searchOptions).result = .ok (.object so))
    (ho : (prepareOptions options).result = .ok o)
    (hps : Search.parameters query fields so = .ok ps) :
    Parse.recordsIn (b.search s index query searchOptions wheres options fields columns).effects =
      (Parse.tree? wheres).effects := by
  have hread : (Search.addTo wheres (.object ps)).effects = (Parse.tree? wheres).effects :=
    (Parse.effects_then _ fun _ => rfl).trans (Parse.effects_ofArgument wheres)
  refine recordsIn_finish (logs_bind_ok hso (logs_prepareOptions searchOptions) ?_)
  refine logs_bind_ok ho (logs_prepareOptions options) (logs_bind_ok hps rfl ?_)
  exact logs_bind_silent (Compile.logs_reading hread) fun t =>
    logs_bind_silent (Compile.logs_tree _ none t) fun _ => logs_assemble ..

end Builder

/-! ## One warning for every ignored connective -/

/-- Where a value is read as trees: at mappings in it, and at none that is out of the way. -/
structure Reading.Confined (v : Value) : Prop where
  stands {p : Place} {m : Entries} (h : Reads v p m) : v.at? p = some (.object m)
  /-- Every tree but the outermost one stands as a sub-tree in its entry. -/
  below {p : Place} {m : Entries} (h : Reads v p m) (hp : p ≠ []) : ∃ q i es, p = q ++ [i] ∧
    v.at? q = some (.object es) ∧ es[i]? = some (wheresKey, .object m)
  /-- Nothing is read below a connective that is ignored. -/
  behind {p : Place} {m : Entries} (h : Reads v p m) (i : Nat) (q : Place) (m' : Entries) :
    ¬ Reads v (p ++ (i + 1) :: q) m'
  /-- A branch is no tree, whatever its keys are. -/
  branch {p : Place} {w : Value} {rest : Entries} (h : Reads v p (("or", w) :: rest)) (i : Nat)
    (m : Entries) : ¬ Reads v (p ++ [0, i]) m
  /-- Nothing is read at or inside a typed value. -/
  typed {p : Place} {u : Value} (h : v.at? p = some u) (hu : u.isTyped = true) (q : Place)
    (m : Entries) : ¬ Reads v (p ++ q) m

namespace Where

/-- What is logged about a value that is given as a tree: one warning for every mapping that is read
as a tree and that holds both connectives, in the order of the document. -/
structure WarnedOnce (v : Value) : Prop where
  compiled (env : Environment) (scope : Option String) :
    Listed (Warns (.tree v)) (Parse.recordsIn (compile env scope v).effects.log)
  /-- A request whose options can be prepared gets as far as the tree. -/
  requested (b : Builder) (s : Settings) (index columns id : Value) (allowRefresh : Bool)
    {options o : Value} (ho : (Builder.prepareOptions options).result = .ok o) :
    Listed (Warns (.tree v))
      (Parse.recordsIn (b.request s index v options columns id allowRefresh).effects)
  /-- A search gets as far as the tree when its clause can be put together, too. -/
  searched (b : Builder) (s : Settings) (index columns : Value)
    {query fields searchOptions options o : Value} {so ps : Entries}
    (hso : (Builder.prepareOptions searchOptions).result = .ok (.object so))
    (ho : (Builder.prepareOptions options).result = .ok o)
    (hps : Search.parameters query fields so = .ok ps) :
    Listed (Warns (.tree v))
      (Parse.recordsIn (b.search s index query searchOptions v options fields columns).effects)

end Where

end SearchRequest
