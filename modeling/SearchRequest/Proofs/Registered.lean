import SearchRequest.Proofs.Compile
/-
What compiling a filter tree registers beside its query. Only nested conditions that return their
children have options, and a tree registers what the options of all of them register, in the order
in which they are met: `Compile.registers_tree?`. Log records are left out.
-/
namespace SearchRequest

/-- Effects without their log records. -/
def Effects.unlogged (e : Effects) : Effects :=
  { e with log := [] }

namespace Effects

theorem unlogged_append (a b : Effects) : (a ++ b).unlogged = a.unlogged ++ b.unlogged := rfl

/-- A registry holds no log. -/
theorem absorb_unlogged (r : Registry) (e : Effects) : r.absorb e.unlogged = r.absorb e := rfl

end Effects

/-! ## What options register -/

namespace Options

/-- The filter clauses of options, the box before the point. -/
def geoClauses (o : Options Value) : List Value :=
  match o.filters with
  | none => []
  | some f => f.box.toList.map GeoBox.clause ++ f.point.toList.map GeoPoint.clause

/-- The entry that options stash: the marker of the previous page. -/
def marker (o : Options Value) : Entries :=
  Entries.ofOption prevSearchAfterKey o.prevSearchAfter

/-- The random score that counts among those of several options: the last one. -/
def lastScore (os : List (Options Value)) : Option RandomScore :=
  (os.filterMap (·.randomScore)).getLast?

theorem lastScore_append (os os' : List (Options Value)) :
    lastScore (os ++ os') = (lastScore os').or (lastScore os) := by
  simp [lastScore, List.getLast?_append]

theorem lastScore_singleton (o : Options Value) : lastScore [o] = o.randomScore := by
  cases h : o.randomScore <;> simp [lastScore, h]

/-- What several options register, one after the other. -/
def together (os : List (Options Value)) : Effects where
  clauses := os.flatMap geoClauses
  function := (lastScore os).map RandomScore.function
  stashed := os.flatMap marker

theorem together_append (os os' : List (Options Value)) :
    together (os ++ os') = together os ++ together os' := by
  ext1
  · simp [together]
  · simp [together, lastScore_append, Option.map_or]
  · simp [together]
  · rfl

theorem unlogged_effects (o : Options Value) : o.effects.unlogged = together [o] := by
  have hfilters : ((o.filters.map GeoFilters.effects).getD ∅).unlogged =
      { clauses := o.geoClauses } := by
    match h : o.filters with
    | none => simp only [geoClauses, h]; rfl
    | some ⟨none, none⟩ | some ⟨some _, none⟩ | some ⟨none, some _⟩ | some ⟨some _, some _⟩ =>
      simp only [geoClauses, h]; rfl
  have hscore : ((o.randomScore.map RandomScore.effects).getD ∅).unlogged =
      { function := o.randomScore.map RandomScore.function } := by
    cases o.randomScore <;> rfl
  rw [effects, Effects.unlogged_append, Effects.unlogged_append, hfilters, hscore]
  ext1
  · simp [together, Effects.unlogged]
  · simp [together, Effects.unlogged, lastScore_singleton]
  · simp [together, Effects.unlogged, marker]
  · rfl

/-- The options of a nested search, read as those of a request that does not write. -/
def ofNested (o : Options Value) : Except Error (Options Value) :=
  read false (.options o)

end Options

/-! ## The options that a tree holds -/

namespace Visited

mutual

/-- The options of a condition: its own before those of its sub-tree. -/
def condition : Condition → List (Options Value)
  | .is .. | .compare .. | .multiMatch .. => []
  | .group _ wheres => tree? wheres
  | .nested _ wheres _ _ => tree? wheres
  | .innerNested _ wheres options _ _ => options :: tree? wheres

/-- The options of a tree that may be absent. -/
def tree? : Option Where → List (Options Value)
  | none => []
  | some t => tree t

/-- The options of a tree, in the order in which its conditions stand. -/
def tree : Where → List (Options Value)
  | .all cs => conditions cs
  | .any bs => branches bs
  | .only c => condition c

/-- The options of conditions, in order. -/
def conditions : List Condition → List (Options Value)
  | [] => []
  | c :: cs => condition c ++ conditions cs

/-- The options of branches, in order. -/
def branches : List (List Condition) → List (Options Value)
  | [] => []
  | b :: bs => conditions b ++ branches bs

end

end Visited

namespace Compile

/-- Whenever a compile succeeds, it registers what the options do when they are read and taken one
after the other. -/
def Registers {α : Type} (c : Compiled α) (asked : List (Options Value)) : Prop :=
  ∀ a, c.result = .ok a →
    ∃ os, asked.mapM Options.ofNested = .ok os ∧ c.effects.unlogged = Options.together os

section
variable {α β : Type} {x : Compiled α} {f : α → Compiled β} {asked more : List (Options Value)}

theorem registers_nil (h : x.effects.unlogged = ∅) : Registers x [] :=
  fun _ _ => ⟨[], rfl, h⟩

theorem registers_bind (hx : Registers x asked) (hf : ∀ a, Registers (f a) more) :
    Registers (x >>= f) (asked ++ more) := by
  intro b h
  obtain ⟨a, ha, hb⟩ := Outcome.result_bind_ok_iff.1 h
  obtain ⟨os, hos, hxe⟩ := hx a ha
  obtain ⟨os', hos', hfe⟩ := hf a b hb
  refine ⟨os ++ os', ?_, ?_⟩
  · rw [List.mapM_append, hos, hos']; rfl
  · rw [Outcome.effects_bind_ok ha, Effects.unlogged_append, hxe, hfe, Options.together_append]

/-- What is done with the result of a compile afterwards registers nothing. -/
theorem registers_map (hx : Registers x asked) (g : α → β) :
    Registers (x >>= fun a => pure (g a)) asked := by
  have h : Registers (x >>= fun a => pure (g a)) (asked ++ []) :=
    registers_bind hx fun _ => registers_nil rfl
  rwa [List.append_nil] at h

end

/-! ## One nested search -/

theorem registers_sortEntries (allowId : Bool) (logger : String) (es : Entries) :
    Registers (Sort.entries allowId logger es) [] := by
  induction es with
  | nil => exact registers_nil rfl
  | cons e es ih =>
    obtain ⟨field, payload⟩ := e
    unfold Sort.entries
    split
    · exact registers_nil rfl
    · exact registers_map ih _
    · exact registers_bind (registers_nil rfl) fun _ => ih

theorem registers_compileSort (env : Environment) (sort : Option Entries) :
    Registers (Options.compileSort env sort) [] := by
  match sort with
  | none => exact registers_nil rfl
  | some es => exact registers_map (registers_sortEntries _ _ es) _

/-- Options that compile were read, and what was read is registered. -/
theorem unlogged_options {env : Environment} {write : Bool} {v : Value} {c : CompiledOptions}
    (h : (Options.compile env write v).result = .ok c) :
    ∃ o, Options.read write v = .ok o ∧
      (Options.compile env write v).effects.unlogged = Options.together [o] := by
  obtain ⟨o, ho, hc⟩ := Outcome.result_bind_ok_iff.1 h
  obtain ⟨sort, hsort, -⟩ := Outcome.result_bind_ok_iff.1 hc
  obtain ⟨os, hos, hlog⟩ := registers_compileSort env o.sort sort hsort
  cases hos
  refine ⟨o, ho, ?_⟩
  calc (Options.compile env write v).effects.unlogged
    _ = (Options.compileTyped env o).effects.unlogged := by
      rw [Options.compile, Outcome.effects_bind_ok ho]
      exact congrArg Effects.unlogged (Effects.empty_append _)
    _ = o.effects.unlogged := by
      rw [Options.compileTyped, Outcome.effects_bind_ok hsort, Effects.unlogged_append, hlog]
      exact (Effects.empty_append _).trans (congrArg Effects.unlogged (Effects.append_empty _))
    _ = Options.together [o] := Options.unlogged_effects o

theorem registers_innerHits (env : Environment) (path : String) (o : Options Value)
    (ignoreUnmapped : Bool) : Registers (innerHits env path o ignoreUnmapped) [o] := by
  refine registers_map (registers_map (fun c hc => ?_) _) _
  obtain ⟨o', ho', he⟩ := unlogged_options hc
  refine ⟨[o'], ?_, he⟩
  rw [List.mapM_cons, Options.ofNested, ho']; rfl

/-! ## A whole tree -/

mutual

theorem registers_condition (env : Environment) (scope : Option String) :
    ∀ c, Registers (condition env scope c) (Visited.condition c)
  | .is .. | .compare .. | .multiMatch .. => registers_nil rfl
  | .group _ wheres => registers_map (registers_tree? env scope wheres) _
  | .nested _ wheres _ true => registers_map (registers_tree? env none wheres) _
  | .nested _ wheres _ false => registers_map (registers_tree? env _ wheres) _
  | .innerNested _ wheres o _ _ =>
    registers_bind (registers_innerHits env _ o _) fun _ =>
      registers_map (registers_tree? env _ wheres) _

/-- A tree registers what the options in it do, in the order in which they are met. -/
theorem registers_tree? (env : Environment) (scope : Option String) :
    ∀ t, Registers (tree? env scope t) (Visited.tree? t)
  | none => registers_nil rfl
  | some t => registers_tree env scope t

theorem registers_tree (env : Environment) (scope : Option String) :
    ∀ t, Registers (tree env scope t) (Visited.tree t)
  | .all cs => registers_map (registers_conditions env scope cs) _
  | .any bs => registers_map (registers_branches env scope bs) _
  | .only c => registers_condition env scope c

theorem registers_conditions (env : Environment) (scope : Option String) :
    ∀ cs, Registers (conditions env scope cs) (Visited.conditions cs)
  | [] => registers_nil rfl
  | c :: cs =>
    registers_bind (registers_condition env scope c) fun _ =>
      registers_map (registers_conditions env scope cs) _

theorem registers_branches (env : Environment) (scope : Option String) :
    ∀ bs, Registers (branches env scope bs) (Visited.branches bs)
  | [] => registers_nil rfl
  | b :: bs =>
    registers_bind (registers_conditions env scope b) fun _ =>
      registers_map (registers_branches env scope bs) _

end

end Compile

/-- Reading a value as a tree only logs. -/
theorem Where.unlogged_compile {env : Environment} {scope : Option String} {v : Value}
    {t : Option Where} (h : (ofArgument v).result = .ok t) :
    (compile env scope v).effects.unlogged = (Compile.tree? env scope t).effects.unlogged := by
  have hp : (Compile.ofParsed (ofArgument v)).result = .ok t := h
  rw [compile, Outcome.effects_bind_ok hp, Effects.unlogged_append]
  exact Effects.empty_append _

/-! ## A spliced tree -/

namespace Visited

theorem conditions_append (cs cs' : List Condition) :
    conditions (cs ++ cs') = conditions cs ++ conditions cs' := by
  induction cs with
  | nil => simp [conditions]
  | cons c cs ih => simp [conditions, ih]

theorem branches_append {c : Condition} (hc : condition c = []) (bs : List (List Condition)) :
    branches (bs.map (· ++ [c])) = branches bs := by
  induction bs with
  | nil => rfl
  | cons b bs ih => simp [branches, conditions_append, conditions, hc, ih]

/-- Adding a condition without options to a tree adds no options. -/
theorem tree_splice {c : Condition} (hc : condition c = []) :
    ∀ t, tree (Search.splice c t) = tree? t
  | none | some (.any []) => hc
  | some (.all cs) => by simp [Search.splice, tree, tree?, conditions_append, conditions, hc]
  | some (.only c') => by simp [Search.splice, tree, tree?, conditions, hc]
  | some (.any (b :: bs)) => branches_append hc (b :: bs)

end Visited

end SearchRequest
