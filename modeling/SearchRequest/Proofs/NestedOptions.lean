import SearchRequest.Proofs.Contents
import SearchRequest.Proofs.Nesting
import SearchRequest.Proofs.Scope
/-
Options for the inner hits of a nested query. They compile as options do, and all their entries go
into one mapping, which has a place for each of them. Only the keys of the sort list change: they are
put into the scope of the nested path as the fields of its sub-tree are
(`Options.compileNested_qualifies`).

The two are written differently. A field stands in a scope that may be the root, while a sort key is
put under the path whatever it is; they part for the empty path, which a scope takes for the root.
-/
namespace SearchRequest

/-! ## Sort lists -/

/-- The document of a sort list, with a name for each key. -/
def Sort.written (name : String → String) (es : List Sort.Entry) : Value :=
  .list (es.map fun e => .entry (name e.1) e.2)

/-- A sort list is put under a path key by key, as fields are. -/
theorem Sort.under_eq_map {path : String} (hpath : path ≠ "") (es : List Sort.Entry) :
    Sort.under path es = es.map fun e => (Field.qualify e.1 (some path), e.2) := by
  have hempty : ¬path.isEmpty = true := by simpa using hpath
  refine List.map_congr_left fun e _ => ?_
  simp only [Field.qualify, if_neg hempty]

/-- A sort list that is under a path already stays as it is. -/
theorem Sort.under_of_isUnder {path : String} {es : List Sort.Entry}
    (h : ∀ e ∈ es, Field.isUnder path e.1 = true) : Sort.under path es = es := by
  calc es.map (fun e => (if Field.isUnder path e.1 then e.1 else path ++ "." ++ e.1, e.2))
    _ = es.map id := List.map_congr_left fun e he => by rw [if_pos (h e he), id_eq]
    _ = es := List.map_id es

namespace CompiledOptions

/-- The options with their sort list under a path. -/
def sortedUnder (c : CompiledOptions) (path : String) : CompiledOptions :=
  { c with sort := c.sort.map (Sort.under path) }

/-- One mapping holds all entries of compiled options, with the keys of the sort list in the scope of
a path. -/
structure QualifiedIn (path : String) (c : CompiledOptions) (hits : Entries) : Prop where
  /-- The keys are those beside the body followed by those of the body. -/
  keys : Entries.keys hits = Entries.keys c.envelope ++ Entries.keys c.body
  nodup : (Entries.keys hits).Nodup
  others : ∀ key, key ≠ "sort" → Entries.find? key hits =
    (Entries.find? key c.envelope).or (Entries.find? key c.body)
  body_sort : Entries.find? "sort" c.body = c.sort.map (Sort.written id)
  sort : Entries.find? "sort" hits = c.sort.map (Sort.written (Field.qualify · (some path)))
  /-- A sort list that is written out is not changed, and nothing else ever is. -/
  unchanged : (∀ es ∈ c.sort, ∀ e ∈ es, Field.isUnder path e.1 = true) →
    hits = Entries.overlay c.envelope c.body

theorem keys_flat_sublist (c : CompiledOptions) : (Entries.keys c.flat).Sublist
    (["size", "from", "refresh"] ++ ["sort", "search_after", "min_score", "highlight"]) := by
  rw [flat, Entries.keys_append]
  exact c.keys_envelope_sublist.append c.keys_body_sublist

/-- No entry of the body takes the place of one beside it. -/
theorem flat_eq_overlay (c : CompiledOptions) : c.flat = Entries.overlay c.envelope c.body := by
  have hdisjoint : ∀ k ∈ ["sort", "search_after", "min_score", "highlight"],
      k ∉ ["size", "from", "refresh"] := by decide
  refine (Entries.overlay_of_new (c.keys_body_sublist.nodup (by decide)) fun k hk hmem => ?_).symm
  exact hdisjoint k (c.keys_body_sublist.subset hk) (c.keys_envelope_sublist.subset hmem)

/-- A sort list that is under the path already is not changed. -/
theorem sortedUnder_of_isUnder {path : String} {c : CompiledOptions}
    (h : ∀ es ∈ c.sort, ∀ e ∈ es, Field.isUnder path e.1 = true) : c.sortedUnder path = c := by
  have hsort : c.sort.map (Sort.under path) = c.sort := by
    cases hc : c.sort with
    | none => rfl
    | some es => rw [Option.map_some, Sort.under_of_isUnder (h es hc)]
  rw [sortedUnder, hsort]

theorem qualifiedIn_flat {path : String} (hpath : path ≠ "") (c : CompiledOptions) :
    c.QualifiedIn path (c.sortedUnder path).flat where
  keys := by
    rw [flat, Entries.keys_append]
    cases hsort : c.sort <;> simp [sortedUnder, envelope, body, hsort, Entries.keys, Entries.ofOption]
  nodup := (c.sortedUnder path).keys_flat_sublist.nodup (by decide)
  others key hkey := by
    simp [flat, sortedUnder, envelope, body, Entries.find?_append, Entries.find?_ofOption,
      Ne.symm hkey, Option.or_assoc]
  body_sort := by
    have hentries : Entries.find? "sort" c.body =
        c.sort.map fun es => .list (es.map Sort.Entry.toValue) := by
      simp [body, Entries.find?_append, Entries.find?_ofOption]
    exact hentries
  sort := by
    rw [find?_sort_flat, sortedUnder, Option.map_map]
    refine congrArg (c.sort.map ·) (funext fun es => ?_)
    rw [Function.comp_apply, Sort.under_eq_map hpath, List.map_map]
    rfl
  unchanged h := by rw [sortedUnder_of_isUnder h, flat_eq_overlay]

end CompiledOptions

namespace Options

theorem compileNested_eq (env : Environment) (path : String) (v : Value) :
    compileNested env path v = do
      let c ← compile env false v
      return (c.sortedUnder path).flat := rfl

theorem exists_compileNested {env : Environment} {path : String} (hpath : path ≠ "") {v : Value}
    {c : CompiledOptions} (hc : (compile env false v).result = .ok c) :
    ∃ hits, (compileNested env path v).result = .ok hits ∧ c.QualifiedIn path hits := by
  refine ⟨_, ?_, c.qualifiedIn_flat hpath⟩
  rw [compileNested_eq, Outcome.result_bind_pure, hc]
  rfl

/-- The inner hits of a nested condition, and the query of its sub-tree. The fields in the own scope
of the sub-tree are written out by the same function as the keys of the sort list. -/
theorem innerNested_qualifies {env : Environment} {scope : Option String} {field path : String}
    (hpath : Field.qualify field scope = path) (hne : path ≠ "") {wheres : Option Where}
    {o : Options Value} {scoreMode : String} {ignoreUnmapped : Bool} {q : Query}
    (h : (Compile.condition env scope
      (.innerNested field wheres o scoreMode ignoreUnmapped)).result = .ok q) :
    ∃ c hits sub, (compile env false (.options o)).result = .ok c ∧ c.QualifiedIn path hits ∧
      (Compile.tree? env none (Qualified.tree? (some path) wheres)).result = .ok sub ∧
      q = .nested path sub scoreMode (some ⟨if hits.isEmpty then [("size", .int env.innerHitsSize)]
        else hits, ignoreUnmapped⟩) := by
  subst hpath
  obtain ⟨inner, hinner, h'⟩ := Outcome.result_bind_ok_iff.1 h
  obtain ⟨sub, hsub, hq⟩ := Outcome.result_bind_ok_iff.1 h'
  obtain ⟨hits, hhits, hinner⟩ := Outcome.result_bind_ok_iff.1 hinner
  obtain ⟨c, hc, hflat⟩ := Outcome.result_bind_ok_iff.1 hhits
  cases hflat
  cases hinner
  cases hq
  have hnot : ¬ Searches.tree? wheres := fun hs =>
    Compile.not_ok_tree? env _ (by simpa [Compile.isRoot] using hne) wheres hs sub hsub
  rw [← Compile.tree?_qualified env _ wheres hnot] at hsub
  exact ⟨c, _, sub, hc, c.qualifiedIn_flat hne, hsub, rfl⟩

/-- **Inner hits only qualify the keys of the sort list.** Under a path that is not empty, options
for inner hits fail as the options alone do, and have their effects. Otherwise one mapping holds all
entries of the compiled options, and the sort list in it has its keys in the scope of the path. In
an inner nested condition these are the names that the fields of its sub-tree have. -/
theorem compileNested_qualifies {path : String} (hpath : path ≠ "") (env : Environment) :
    (∀ v, (compileNested env path v).effects = (compile env false v).effects ∧
      (∀ e, (compileNested env path v).result = .error e ↔
        (compile env false v).result = .error e) ∧
      ∀ c, (compile env false v).result = .ok c →
        ∃ hits, (compileNested env path v).result = .ok hits ∧ c.QualifiedIn path hits) ∧
    ∀ scope field wheres o scoreMode ignoreUnmapped q, Field.qualify field scope = path →
      (Compile.condition env scope
        (.innerNested field wheres o scoreMode ignoreUnmapped)).result = .ok q →
      ∃ c hits sub, (compile env false (.options o)).result = .ok c ∧ c.QualifiedIn path hits ∧
        (Compile.tree? env none (Qualified.tree? (some path) wheres)).result = .ok sub ∧
        q = .nested path sub scoreMode (some
          ⟨if hits.isEmpty then [("size", .int env.innerHitsSize)] else hits, ignoreUnmapped⟩) := by
  refine ⟨fun v => ⟨?_, fun e => ?_, fun c hc => exists_compileNested hpath hc⟩,
    fun _ _ _ _ _ _ _ hfield h => innerNested_qualifies hfield hpath h⟩
  · rw [compileNested_eq, Outcome.effects_bind_pure]
  · rw [compileNested_eq, Outcome.result_bind_pure, map_error_iff]

/-- Options at the path of comments, and an inner nested condition that sorts by a field and asks
for it. -/
theorem compileNested_qualifies_comments : "comments" ≠ "" ∧
    (∃ c hits, (compile {} false (.object [("limit", .int 2),
        ("sort", .object [("likes", .str "desc"), ("comments.author", .str "asc")])])).result
        = .ok c ∧
      c.QualifiedIn "comments" hits ∧
      hits = [("size", .int 2), ("sort", .list
        [.entry "comments.likes" (.str "desc"), .entry "comments.author" (.str "asc")])]) ∧
    ∃ c hits sub, (compile {} false (.options { sort := some [("likes", .str "desc")] })).result
        = .ok c ∧ c.QualifiedIn "comments" hits ∧
      (Compile.tree? {} none (Qualified.tree? (some "comments")
        (some (.only (.is "likes" (.int 1)))))).result = .ok sub ∧
      Query.nested "comments" (.leaf (.fullText "comments.likes" (.int 1))) "avg"
          (some ⟨[("sort", .list [.entry "comments.likes" (.str "desc")])], false⟩) =
        .nested "comments" sub "avg"
          (some ⟨if hits.isEmpty then [("size", .int 100)] else hits, false⟩) := by
  have hpath : "comments" ≠ "" := by decide
  refine ⟨hpath, ?_, ?_⟩
  · obtain ⟨hits, hhits, hq⟩ := ((compileNested_qualifies hpath {}).1 (.object [("limit", .int 2),
      ("sort", .object [("likes", .str "desc"), ("comments.author", .str "asc")])])).2.2 _ rfl
    refine ⟨_, hits, rfl, hq, ?_⟩
    cases hhits
    rfl
  · exact (compileNested_qualifies hpath {}).2 none "comments" (some (.only (.is "likes" (.int 1))))
      { sort := some [("likes", .str "desc")] } "avg" false _ rfl rfl

end Options

end SearchRequest
