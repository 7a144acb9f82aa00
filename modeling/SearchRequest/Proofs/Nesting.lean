import SearchRequest.Proofs.Entries
import SearchRequest.Proofs.Meaning
/-
What stands inside a nested query stays under its path. The fields of its leaves, the paths of the
nested queries in it and the keys of its sort list all begin with the path and a dot, however deep
they stand (`Where.compile_confined`). A fragment compiled under a parent path stays under that
path in the same way.

Two kinds of condition are left out: the fields of a negated nested condition are not qualified, and
a search clause is taken as the caller wrote it. Keyword fields come from a mapping of types: a
resolver of another kind could answer with any field.
-/
namespace SearchRequest

/-! ## Paths -/

namespace Field

theorem isUnder_iff {path field : String} :
    isUnder path field = true ↔ ∃ rest, field = path ++ "." ++ rest := by
  simp only [isUnder, List.isPrefixOf_iff_prefix]
  constructor
  · rintro ⟨cs, hcs⟩
    refine ⟨String.ofList cs, String.toList_injective ?_⟩
    simpa using hcs.symm
  · rintro ⟨rest, rfl⟩
    exact ⟨rest.toList, by simp⟩

theorem isUnder_append_right {path field : String} (h : isUnder path field = true) (rest : String) :
    isUnder path (field ++ rest) = true := by
  obtain ⟨cs, rfl⟩ := isUnder_iff.1 h
  exact isUnder_iff.2 ⟨cs ++ rest, String.append_assoc ..⟩

theorem isUnder_trans {path path' field : String} (h : isUnder path path' = true)
    (h' : isUnder path' field = true) : isUnder path field = true := by
  obtain ⟨rest, rfl⟩ := isUnder_iff.1 h'
  exact isUnder_append_right (isUnder_append_right h ".") rest

theorem ne_empty_of_isUnder {path field : String} (h : isUnder path field = true) : field ≠ "" := by
  obtain ⟨rest, rfl⟩ := isUnder_iff.1 h
  simp

/-- A field in a scope that is not empty is under it. -/
theorem isUnder_qualify {path : String} (hpath : path ≠ "") (field : String) :
    isUnder path (qualify field (some path)) = true := by
  have hempty : ¬path.isEmpty = true := by simpa using hpath
  by_cases h : isUnder path field = true
  · simp [qualify, hempty, h]
  · simp [qualify, hempty, h, isUnder_append]

end Field

theorem QueryText.isUnder_contains {path field : String} (h : Field.isUnder path field = true)
    (text : String) : Field.isUnder path (contains field text) = true := by
  rw [contains, String.append_assoc, String.append_assoc]
  exact Field.isUnder_append_right h _

/-! ## Queries under a path -/

/-- What a leaf names is under a path: its field, or for a leaf that holds a query text that text,
after the opening of a negation. -/
def Leaf.Under (path : String) : Leaf → Prop
  | term field _ | terms field _ | fullText field _ | phrase field _ | phraseStart field _
  | range field _ | regexp field _ | present field => Field.isUnder path field
  | queryString parameters => ∃ text, Entries.find? "query" parameters = some (.str text) ∧
      (Field.isUnder path text ∨ ∃ rest, text = "(NOT " ++ rest ∧ Field.isUnder path rest)
  | multiMatch _ => False

/-- Inner hits are sorted by fields under a path, if they are sorted. -/
def InnerHits.SortedUnder (path : String) (inner : InnerHits) : Prop :=
  ∀ v, Entries.find? "sort" inner.hits = some v →
    ∃ es : List Sort.Entry, v = .list (es.map Sort.Entry.toValue) ∧ ∀ e ∈ es, Field.isUnder path e.1

namespace Query

mutual

/-- Everything that a query names is under a path. -/
def Under (path : String) : Query → Prop
  | matchAll => True
  | leaf l => l.Under path
  | bool _ q => Under path q
  | boolList _ qs => AllUnder path qs
  | nested path' q _ inner =>
    Field.isUnder path path' ∧ Under path q ∧ ∀ hits ∈ inner, hits.SortedUnder path

/-- Everything that the queries of a list name is under a path. -/
def AllUnder (path : String) : List Query → Prop
  | [] => True
  | q :: qs => Under path q ∧ AllUnder path qs

end

mutual

/-- Every nested query in a query, at any depth, holds only what is under its path. The empty path
is the root, which holds everything. -/
def Closed : Query → Prop
  | matchAll | leaf _ => True
  | bool _ q => Closed q
  | boolList _ qs => AllClosed qs
  | nested path q _ inner =>
    Closed q ∧ (path ≠ "" → q.Under path ∧ ∀ hits ∈ inner, hits.SortedUnder path)

/-- Every nested query in the queries of a list holds only what is under its path. -/
def AllClosed : List Query → Prop
  | [] => True
  | q :: qs => Closed q ∧ AllClosed qs

end

theorem allUnder_iff {path : String} {qs : List Query} :
    AllUnder path qs ↔ ∀ q ∈ qs, q.Under path := by
  induction qs with
  | nil => simp [AllUnder]
  | cons q qs ih => rw [AllUnder, ih, List.forall_mem_cons]

theorem allClosed_iff {qs : List Query} : AllClosed qs ↔ ∀ q ∈ qs, q.Closed := by
  induction qs with
  | nil => simp [AllClosed]
  | cons q qs ih => rw [AllClosed, ih, List.forall_mem_cons]

end Query

theorem Leaf.Under.mono {path path' : String} (hpath : Field.isUnder path path' = true) {l : Leaf}
    (h : l.Under path') : l.Under path := by
  cases l with
  | queryString =>
    obtain ⟨text, hfind, htext⟩ := h
    refine ⟨text, hfind, htext.imp (Field.isUnder_trans hpath) ?_⟩
    rintro ⟨rest, hrest, hunder⟩
    exact ⟨rest, hrest, Field.isUnder_trans hpath hunder⟩
  | multiMatch => exact h
  | _ => exact Field.isUnder_trans hpath h

theorem InnerHits.SortedUnder.mono {path path' : String} (hpath : Field.isUnder path path' = true)
    {inner : InnerHits} (h : inner.SortedUnder path') : inner.SortedUnder path := by
  intro v hv
  obtain ⟨es, hes, hunder⟩ := h v hv
  exact ⟨es, hes, fun e he => Field.isUnder_trans hpath (hunder e he)⟩

namespace Query

mutual

/-- What is under a path is under every path above it. -/
theorem Under.mono {path path' : String} (hpath : Field.isUnder path path' = true) :
    ∀ q : Query, q.Under path' → q.Under path
  | .matchAll, _ => trivial
  | .leaf _, h => Leaf.Under.mono hpath h
  | .bool _ q, h => Under.mono hpath q h
  | .boolList _ qs, h => AllUnder.mono hpath qs h
  | .nested _ q _ _, ⟨hnested, hq, hinner⟩ =>
    ⟨Field.isUnder_trans hpath hnested, Under.mono hpath q hq, fun hits hhits =>
      (hinner hits hhits).mono hpath⟩

theorem AllUnder.mono {path path' : String} (hpath : Field.isUnder path path' = true) :
    ∀ qs : List Query, AllUnder path' qs → AllUnder path qs
  | [], _ => trivial
  | q :: qs, ⟨hq, hqs⟩ => ⟨Under.mono hpath q hq, AllUnder.mono hpath qs hqs⟩

end

end Query

/-- A query is closed, and under the path of its scope unless that is the root. -/
structure Query.Confined (scope : Option String) (q : Query) : Prop where
  closed : q.Closed
  under : ∀ path, scope = some path → path ≠ "" → q.Under path

/-- A list of confined queries is confined. -/
theorem Query.Confined.boolList {scope : Option String} {clause : Clause} {qs : List Query}
    (h : ∀ q ∈ qs, q.Confined scope) : (Query.boolList clause qs).Confined scope :=
  ⟨Query.allClosed_iff.2 fun q hq => (h q hq).closed, fun path hscope hpath =>
    Query.allUnder_iff.2 fun q hq => (h q hq).under path hscope hpath⟩

/-- A nested query is confined when its sub-query is confined to its path. -/
theorem Query.Confined.nested {scope : Option String} {path scoreMode : String} {q : Query}
    {inner : Option InnerHits} (hq : q.Confined (some (Field.qualify path scope)))
    (hinner : ∀ hits ∈ inner, hits.SortedUnder (Field.qualify path scope)) :
    (Query.nested (Field.qualify path scope) q scoreMode inner).Confined scope := by
  refine ⟨⟨hq.closed, fun hpath => ⟨hq.under _ rfl hpath, hinner⟩⟩, ?_⟩
  rintro parent rfl hparent
  have hunder := Field.isUnder_qualify hparent path
  refine ⟨hunder, Query.Under.mono hunder q ?_, fun hits hhits => (hinner hits hhits).mono hunder⟩
  exact hq.under _ rfl (Field.ne_empty_of_isUnder hunder)

/-! ## Trees whose queries are confined -/

namespace Confinable

mutual

/-- A condition does not search, and neither it nor what it holds is a negated nested condition. -/
def condition : Condition → Prop
  | .is .. | .multiMatch .. => True
  | .compare _ op _ => op ≠ .search
  | .group _ wheres | .innerNested _ wheres _ _ _ => tree? wheres
  | .nested _ wheres _ negated => negated = false ∧ tree? wheres

/-- No condition of a tree that may be absent searches or is a negated nested one. -/
def tree? : Option Where → Prop
  | none => True
  | some t => tree t

/-- No condition of a tree searches or is a negated nested one, at any depth. -/
def tree : Where → Prop
  | .all cs => conditions cs
  | .any bs => branches bs
  | .only c => condition c

/-- None of the conditions searches or is a negated nested one. -/
def conditions : List Condition → Prop
  | [] => True
  | c :: cs => condition c ∧ conditions cs

/-- No condition of the branches searches or is a negated nested one. -/
def branches : List (List Condition) → Prop
  | [] => True
  | b :: bs => conditions b ∧ branches bs

end

end Confinable

/-! ## Comparisons -/

/-- The keyword field for a field is the field with something after it, when it is looked up in a
mapping of types or not at all. -/
theorem Environment.exists_keywordField {env : Environment}
    (hresolver : ∀ table, env.resolver ≠ some (.byTable table)) {op : Operator}
    {field keyword : String} (h : env.keywordField op field = .ok keyword) :
    ∃ rest, keyword = field ++ rest := by
  have hresolve : ∀ {found : String}, env.resolve field = some found →
      ∃ rest, found = field ++ rest := by
    intro found hfound
    obtain ⟨r, hr, hfound⟩ := Option.bind_eq_some_iff.1 hfound
    cases r with
    | byTable table => exact absurd hr (hresolver table)
    | byType types suffix =>
      rw [KeywordResolver.resolve] at hfound
      split at hfound
      · cases hfound
        exact ⟨"", by simp⟩
      · split at hfound
        · cases hfound
          exact ⟨"." ++ suffix, String.append_assoc ..⟩
        · cases hfound
  unfold keywordField at h
  split at h
  · cases h
    exact ⟨"", by simp⟩
  · split at h
    · rename_i found hfound
      cases h
      exact hresolve (Option.filter_eq_some_iff.1 hfound).1
    · split at h
      · cases h
      · cases h
        exact ⟨"", by simp⟩

namespace Compile

variable {env : Environment} (hresolver : ∀ table, env.resolver ≠ some (.byTable table))
include hresolver

/-- The leaf of a comparison names the field that is compared, or its keyword field. -/
theorem under_leafOf? {path field : String} {op : Operator} {operand : Value} {l : Leaf}
    (hfield : Field.isUnder path field = true) (hop : op ≠ .search)
    (h : env.leafOf? field op operand = some l) : l.Under path := by
  have hkeyword : ∀ {keyword : String}, (env.keywordField op field).toOption = some keyword →
      Field.isUnder path keyword = true := by
    intro keyword hk
    cases hx : env.keywordField op field with
    | error e => simp [hx, Except.toOption] at hk
    | ok found =>
      obtain rfl : found = keyword := by simpa [hx, Except.toOption] using hk
      obtain ⟨rest, rfl⟩ := env.exists_keywordField hresolver hx
      exact Field.isUnder_append_right hfield rest
  cases op with
  | search => exact absurd rfl hop
  | between | notBetween =>
    unfold Environment.leafOf? at h
    dsimp only at h
    split at h
    · cases h
      exact hfield
    · cases h
  | oneOf | noneOf =>
    obtain ⟨vs, -, hl⟩ := Option.bind_eq_some_iff.1 h
    obtain ⟨keyword, hk, rfl⟩ := Option.map_eq_some_iff.1 hl
    exact hkeyword hk
  | exact =>
    obtain ⟨keyword, hk, rfl⟩ := Option.map_eq_some_iff.1 h
    exact hkeyword hk
  | like =>
    cases h
    exact ⟨_, rfl, .inl (QueryText.isUnder_contains hfield _)⟩
  | notLike =>
    cases h
    exact ⟨_, rfl, .inr ⟨_, String.append_assoc .., Field.isUnder_append_right
      (QueryText.isUnder_contains hfield _) ")"⟩⟩
  | _ =>
    cases h
    exact hfield

theorem confined_comparison {scope : Option String} {field : String} {op : Operator}
    {operand : Value} {q : Query} (hop : op ≠ .search)
    (h : comparison env (Field.qualify field scope) op operand = .ok q) : q.Confined scope := by
  obtain ⟨l, hl, hq⟩ := comparison_eq_ok h
  have hleaf : ∀ path, scope = some path → path ≠ "" → l.Under path := by
    rintro path rfl hpath
    exact under_leafOf? hresolver (Field.isUnder_qualify hpath field) hop hl
  have hcases : q = .leaf l ∨ q = .bool .mustNot (.leaf l) ∨ q = .boolList .mustNot [.leaf l] := by
    split at hq
    · exact .inr hq
    · exact .inl hq
  obtain rfl | rfl | rfl := hcases
  · exact ⟨trivial, hleaf⟩
  · exact ⟨trivial, hleaf⟩
  · exact ⟨⟨trivial, trivial⟩, fun path hscope hpath => ⟨hleaf path hscope hpath, trivial⟩⟩

end Compile

/-! ## Nested searches -/

/-- A key that is put under a path, unless it is there already, is under it. -/
theorem Sort.isUnder_key (path key : String) :
    Field.isUnder path (if Field.isUnder path key then key else path ++ "." ++ key) = true := by
  split
  · assumption
  · exact Field.isUnder_append path key

/-- A sort list that is moved under a path is under it. -/
theorem Sort.isUnder_under {path : String} {es : List Sort.Entry} {e : Sort.Entry}
    (he : e ∈ Sort.under path es) : Field.isUnder path e.1 = true := by
  obtain ⟨⟨key, v⟩, -, rfl⟩ := List.mem_map.1 he
  exact Sort.isUnder_key path key

theorem CompiledOptions.find?_sort_flat (c : CompiledOptions) :
    Entries.find? "sort" c.flat = c.sort.map fun es => .list (es.map Sort.Entry.toValue) := by
  simp [flat, envelope, body, Entries.find?_append, Entries.find?_ofOption]

namespace Compile

/-- A search in several fields is compiled at the root only. -/
theorem multiMatch_eq_ok {scope : Option String} {query : Value} {type : String}
    {fields : List String} {options : Entries} {q : Query}
    (h : multiMatch scope query type fields options = .ok q) :
    isRoot scope = true ∧ ∃ parameters, q = .leaf (.multiMatch parameters) := by
  unfold multiMatch at h
  split at h
  · cases h
    exact ⟨‹_›, _, rfl⟩
  · cases h

/-- The inner hits of a nested query are sorted by fields under its path. -/
theorem sortedUnder_innerHits {env : Environment} {path : String} {o : Options Value}
    {ignoreUnmapped : Bool} {inner : InnerHits}
    (h : (innerHits env path o ignoreUnmapped).result = .ok inner) : inner.SortedUnder path := by
  obtain ⟨hits, hhits, hinner⟩ := Outcome.result_bind_ok_iff.1 h
  obtain ⟨c, -, hc⟩ := Outcome.result_bind_ok_iff.1 hhits
  cases hc
  cases hinner
  intro v hv
  dsimp only at hv
  split at hv
  · cases hv
  · rw [CompiledOptions.find?_sort_flat, Option.map_map] at hv
    obtain ⟨es, -, rfl⟩ := Option.map_eq_some_iff.1 hv
    exact ⟨Sort.under path es, rfl, fun e he => Sort.isUnder_under he⟩

-- A nested condition opens the scope of its own path, so what its sub-tree is confined to is that
-- path, and the path is under the scope around it. All other conditions keep the scope.
mutual

theorem confined_condition {env : Environment}
    (hresolver : ∀ table, env.resolver ≠ some (.byTable table)) (scope : Option String) :
    ∀ c, Confinable.condition c → ∀ q, (condition env scope c).result = .ok q → q.Confined scope
  | .is field v, _, q, h => by
    cases h
    refine ⟨trivial, ?_⟩
    rintro path rfl hpath
    exact Field.isUnder_qualify hpath field
  | .compare .., hop, q, h => confined_comparison hresolver hop h
  | .multiMatch .., _, q, h => by
    obtain ⟨hroot, parameters, rfl⟩ := multiMatch_eq_ok h
    refine ⟨trivial, ?_⟩
    rintro path rfl hpath
    have hempty : path = "" := by simpa [isRoot] using hroot
    exact absurd hempty hpath
  | .group _ wheres, hc, q, h => by
    obtain ⟨sub, hsub, hq⟩ := Outcome.result_bind_ok_iff.1 h
    cases hq
    obtain ⟨hclosed, hunder⟩ := confined_tree? hresolver scope wheres hc sub hsub
    exact ⟨hclosed, hunder⟩
  | .nested _ wheres _ false, ⟨_, hc⟩, q, h => by
    obtain ⟨sub, hsub, hq⟩ := Outcome.result_bind_ok_iff.1 h
    cases hq
    exact .nested (confined_tree? hresolver _ wheres hc sub hsub) (by simp)
  | .innerNested _ wheres _ _ _, hc, q, h => by
    obtain ⟨inner, hinner, h'⟩ := Outcome.result_bind_ok_iff.1 h
    obtain ⟨sub, hsub, hq⟩ := Outcome.result_bind_ok_iff.1 h'
    cases hq
    have hsorted := sortedUnder_innerHits hinner
    exact .nested (confined_tree? hresolver _ wheres hc sub hsub) (by simpa using hsorted)

/-- What a tree compiles to is confined to the scope that it is compiled in. -/
theorem confined_tree? {env : Environment}
    (hresolver : ∀ table, env.resolver ≠ some (.byTable table)) (scope : Option String) :
    ∀ t, Confinable.tree? t → ∀ q, (tree? env scope t).result = .ok q → q.Confined scope
  | none, _, q, h => by
    cases h
    exact ⟨trivial, fun _ _ _ => trivial⟩
  | some t, ht, q, h => confined_tree hresolver scope t ht q h

theorem confined_tree {env : Environment}
    (hresolver : ∀ table, env.resolver ≠ some (.byTable table)) (scope : Option String) :
    ∀ t, Confinable.tree t → ∀ q, (tree env scope t).result = .ok q → q.Confined scope
  | .all cs, ht, q, h => by
    obtain ⟨qs, hqs, hq⟩ := Outcome.result_bind_ok_iff.1 h
    cases hq
    exact .boolList (confined_conditions hresolver scope cs ht qs hqs)
  | .any bs, ht, q, h => by
    obtain ⟨qs, hqs, hq⟩ := Outcome.result_bind_ok_iff.1 h
    cases hq
    exact .boolList (confined_branches hresolver scope bs ht qs hqs)
  | .only c, ht, q, h => confined_condition hresolver scope c ht q h

theorem confined_conditions {env : Environment}
    (hresolver : ∀ table, env.resolver ≠ some (.byTable table)) (scope : Option String) :
    ∀ cs, Confinable.conditions cs → ∀ qs, (conditions env scope cs).result = .ok qs →
      ∀ q ∈ qs, q.Confined scope
  | [], _, qs, h => by
    cases h
    exact List.forall_mem_nil _
  | c :: cs, ⟨hc, hcs⟩, qs, h => by
    obtain ⟨q, hq, h'⟩ := Outcome.result_bind_ok_iff.1 h
    obtain ⟨more, hmore, hqs⟩ := Outcome.result_bind_ok_iff.1 h'
    cases hqs
    exact List.forall_mem_cons.2
      ⟨confined_condition hresolver scope c hc q hq,
        confined_conditions hresolver scope cs hcs more hmore⟩

theorem confined_branches {env : Environment}
    (hresolver : ∀ table, env.resolver ≠ some (.byTable table)) (scope : Option String) :
    ∀ bs, Confinable.branches bs → ∀ qs, (branches env scope bs).result = .ok qs →
      ∀ q ∈ qs, q.Confined scope
  | [], _, qs, h => by
    cases h
    exact List.forall_mem_nil _
  | b :: bs, ⟨hb, hbs⟩, qs, h => by
    obtain ⟨own, hown, h'⟩ := Outcome.result_bind_ok_iff.1 h
    obtain ⟨more, hmore, hqs⟩ := Outcome.result_bind_ok_iff.1 h'
    have hmust : (Query.boolList .must own).Confined scope :=
      .boolList (confined_conditions hresolver scope b hb own hown)
    have hmore' := confined_branches hresolver scope bs hbs more hmore
    cases hqs
    split
    · exact hmore'
    · exact List.forall_mem_cons.2 ⟨hmust, hmore'⟩

end

end Compile

/-- **Nothing leaves its nested query.** When a tree without searches and negated nested conditions
compiles, every nested query in the result holds only what is under its path, and the result itself
holds only what is under the parent path. Keyword fields are looked up by type or not at all. -/
theorem Where.compile_confined {env : Environment} {scope : Option String} {v : Value}
    {t : Option Where} {q : Query} (hresolver : ∀ table, env.resolver ≠ some (.byTable table))
    (ht : (ofArgument v).result = .ok t) (hconfinable : Confinable.tree? t)
    (hq : (compile env scope v).result = .ok q) :
    q.Closed ∧ ∀ path, scope = some path → path ≠ "" → q.Under path := by
  obtain ⟨t', ht', hq'⟩ := result_compile_ok_iff.1 hq
  obtain rfl : t = t' := Except.ok.inj (ht.symm.trans ht')
  obtain ⟨hclosed, hunder⟩ := Compile.confined_tree? hresolver scope t hconfinable q hq'
  exact ⟨hclosed, hunder⟩

/-- Sorted comments with a keyword field, and replies inside them, under a path of their own. -/
theorem Where.compile_confined_comments :
    let env : Environment :=
      { resolver := some (.byType [("post.comments.author.raw", .str "keyword")] "raw") }
    let replies : Value := .object [("replies", .object [("nested", .object
      [("wheres", .object [("text", .object [("not_like", .str "x")])]),
        ("score_mode", .str "avg")])])]
    let v : Value := .object [("comments", .object [("innerNested", .object
      [("wheres", .object [("and", .list
          [.object [("author", .object [("exact", .str "x")])], replies])]),
        ("score_mode", .str "avg"),
        ("options", .object [("sort", .object [("seen", .str "desc")])])])])]
    ∃ q, (Where.compile env (some "post") v).result = .ok q ∧ q.Closed ∧ q.Under "post" := by
  intro env replies v
  let t : Option Where := some (.only (.innerNested "comments"
    (some (.all [.compare "author" .exact (.str "x"),
      .nested "replies" (some (.only (.compare "text" .notLike (.str "x")))) "avg" false]))
    { sort := some [("seen", .str "desc")] } "avg" false))
  have ht : (Where.ofArgument v).result = .ok t := rfl
  have hconfinable : Confinable.tree? t :=
    ⟨Operator.noConfusion, ⟨rfl, Operator.noConfusion⟩, trivial⟩
  obtain ⟨q, hq⟩ : ∃ q, (Where.compile env (some "post") v).result = .ok q :=
    exists_ok_of_isOk (by decide +kernel)
  obtain ⟨hclosed, hunder⟩ := Where.compile_confined (by simp [env]) ht hconfinable hq
  exact ⟨q, hq, hclosed, hunder "post" rfl (by decide)⟩

end SearchRequest
