import SearchRequest.Aggregation
import SearchRequest.Proofs.Rows
import SearchRequest.Settings
/-
The levels of an aggregation over columns. `IsChain` says what one level of buckets for every column
is: which terms a level holds, in which order its buckets come, and where the next level stands. The
aggregation over any columns is such a chain whenever the sort order is a mapping or null, and it
needs at least one column: `Aggregation.build_chain`.
-/
namespace SearchRequest.Aggregation

/-- The part of an order under a word, for what a sort order holds under a name: nothing when the
name is not mentioned, and a direction that is ascending only for the text "asc". -/
inductive OrderedBy (word : String) : Option Value → List Value → Prop
  | unmentioned : OrderedBy word none []
  | ascending : OrderedBy word (some (.str "asc")) [.object [(word, .str "asc")]]
  | descending {v : Value} (h : v ≠ .str "asc") :
      OrderedBy word (some v) [.object [(word, .str "desc")]]

section
variable (asked : String → Option Value) (size : Value) (column : String)

/-- The terms of a column, when a sort order holds `asked` under the names: the column itself, the
size, and an order when the sort order mentions the document count or the column. The count comes
first. -/
inductive IsTerms : Value → Prop
  | unordered (hcount : asked "_count" = none) (hkey : asked column = none) :
      IsTerms (.object [("field", .str column), ("size", size)])
  | ordered {count key : List Value} (hcount : OrderedBy "_count" (asked "_count") count)
      (hkey : OrderedBy "_key" (asked column) key) (hsome : count ++ key ≠ []) :
      IsTerms (.object [("field", .str column), ("size", size), ("order", .list (count ++ key))])

/-- One level of buckets: a single entry, named after the column, with the terms of the column and
the level below if there is one. -/
inductive IsLevel (below : Option Value) : Value → Prop
  | mk {terms : Value} (h : IsTerms asked size column terms) :
      IsLevel below
        (.object [("by_" ++ column, .object (("terms", terms) :: Entries.ofOption "aggs" below))])

end

/-- One level for every column, in order, each of which holds the next one. -/
structure IsChain (asked : String → Option Value) (size : Value) (columns : List String)
    (levels : List Value) : Prop where
  length : levels.length = columns.length
  level : ∀ k column v, columns[k]? = some column → levels[k]? = some v →
    IsLevel asked size column levels[k + 1]? v

/-! ## One level -/

theorem orderedBy_direction (word : String) (held : Option Value) :
    OrderedBy word held (held.map fun v => Value.object [(word, direction v)]).toList := by
  match held with
  | none => exact .unmentioned
  | some v =>
    by_cases hasc : v = .str "asc"
    · subst hasc
      exact .ascending
    · have hdesc : direction v = .str "desc" := by
        unfold direction
        split
        · exact absurd rfl hasc
        · rfl
      rw [Option.map_some, hdesc]
      exact .descending hasc

theorem OrderedBy.eq_nil_iff {word : String} {held : Option Value} {order : List Value}
    (h : OrderedBy word held order) : order = [] ↔ held = none := by
  cases h <;> simp

/-- A sort order answers for every column with what it holds under the name. -/
def Answers (sort : Value) (asked : String → Option Value) : Prop :=
  ∀ name, lookUp sort (.str name) = .ok (asked name)

theorem answers_mapping {sort : Value} (h : sort.isMapping = true) : Answers sort sort.under? := by
  intro name
  cases sort with
  | object es => rfl
  | table rows =>
    have hkey : (Value.str name).isKey = true := rfl
    simp only [lookUp, hkey, if_true, Rows.lookup?_str, Value.under?]
  | _ => cases h

section
variable {sort : Value} {asked : String → Option Value} (h : Answers sort asked)
include h

/-- The order of a column: the part for the count in front of the part for the column. -/
theorem exists_order (column : String) :
    ∃ count key, order sort (.str column) = .ok (count ++ key) ∧
      OrderedBy "_count" (asked "_count") count ∧ OrderedBy "_key" (asked column) key := by
  refine ⟨_, _, ?_, orderedBy_direction "_count" _, orderedBy_direction "_key" _⟩
  rw [order, h, h]
  rfl

theorem exists_terms (size : Value) (column : String) :
    ∃ v, terms sort size (.str column) = .ok v ∧ IsTerms asked size column v := by
  obtain ⟨count, key, horder, hcount, hkey⟩ := exists_order h column
  rw [terms, horder]
  refine ⟨_, rfl, ?_⟩
  by_cases hnil : count ++ key = []
  · rw [hnil]
    obtain ⟨hcountNil, hkeyNil⟩ := List.append_eq_nil_iff.1 hnil
    exact .unordered (hcount.eq_nil_iff.1 hcountNil) (hkey.eq_nil_iff.1 hkeyNil)
  · have hsome : ¬ (count ++ key).isEmpty = true := mt List.isEmpty_iff.1 hnil
    simp only [if_neg hsome]
    exact .ordered hcount hkey hnil

end

/-! ## All levels -/

theorem IsChain.cons {asked : String → Option Value} {size v : Value} {column : String}
    {columns : List String} {levels : List Value} (hv : IsLevel asked size column levels.head? v)
    (h : IsChain asked size columns levels) :
    IsChain asked size (column :: columns) (v :: levels) where
  length := congrArg Nat.succ h.length
  level
    | 0, _, _, hcolumn, hlevel => by
      cases hcolumn
      cases hlevel
      rw [List.getElem?_cons_succ, ← List.head?_eq_getElem?]
      exact hv
    | k + 1, _, _, hcolumn, hlevel => h.level k _ _ hcolumn hlevel

/-- The levels of any number of columns, by induction on the columns: a column adds one level on top
of those of the columns behind it. Without columns there is no level. -/
theorem exists_chain {sort : Value} {asked : String → Option Value} (h : Answers sort asked)
    (size : Value) (columns : List String) :
    ∃ es vs, levels sort size (columns.map .str) = .ok es ∧ IsChain asked size columns vs ∧
      vs.head? = if es.isEmpty then none else some (.object es) := by
  induction columns with
  | nil => exact ⟨[], [], rfl, ⟨rfl, fun k => by simp⟩, rfl⟩
  | cons column columns ih =>
    obtain ⟨below, vs, hbelow, hchain, hhead⟩ := ih
    obtain ⟨terms, hterms, hisTerms⟩ := exists_terms h size column
    have hinner : (if below.isEmpty then [] else [("aggs", Value.object below)]) =
        Entries.ofOption "aggs" vs.head? := by
      rw [hhead]
      split <;> rfl
    refine ⟨[("by_" ++ column, .object (("terms", terms) :: Entries.ofOption "aggs" vs.head?))],
      _ :: vs, ?_, hchain.cons (.mk hisTerms), rfl⟩
    rw [← hinner, List.map_cons, levels, hterms, hbelow]
    rfl

/-- An absent sort order is read as an empty mapping, which holds the same. -/
theorem answers_given {sort : Value} (h : sort.isMapping = true ∨ sort = .null) :
    Answers (if sort.truthy then sort else .object []) sort.under? := by
  rcases h with hmapping | rfl
  · by_cases htruthy : sort.truthy = true
    · rw [if_pos htruthy]
      exact answers_mapping hmapping
    · rw [if_neg htruthy]
      intro name
      cases sort with
      | object es =>
        have hnil : es = [] := by simpa [Value.truthy] using htruthy
        subst hnil
        rfl
      | table rows =>
        have hnil : rows = [] := by simpa [Value.truthy] using htruthy
        subst hnil
        rfl
      | _ => cases hmapping
  · exact fun _ => rfl

/-- What is empty or a text lists no columns. -/
theorem columnsOf_eq_error {columns : Value}
    (h : columns.truthy = false ∨ ∃ text, columns = .str text) :
    columnsOf columns = .error (.noColumns columns) := by
  rcases h with hfalsy | ⟨text, rfl⟩
  · cases columns with
    | list vs | tuple vs | bytes vs | object vs =>
      have hnil : vs = [] := by simpa [Value.truthy] using hfalsy
      subst hnil
      rfl
    | str s => rfl
    | _ => simp [columnsOf, hfalsy]
  · rfl

theorem build_ok {columns sort bucketSize : Value} {defaultSize : Int} {names : List Value}
    {es : Entries} (hnames : columnsOf columns = .ok names)
    (hes : levels (if sort.truthy then sort else .object [])
      (if bucketSize.truthy then bucketSize else .int defaultSize) names = .ok es) :
    build columns sort bucketSize defaultSize = .ok (.object es) := by
  rw [build, hnames]
  simp only [bind, Except.bind, hes]
  rfl

/-- **One level for every column.** The aggregation over one or more columns is a chain of as many
levels, in the order of the columns, whatever the columns are called and however large the buckets
are. An empty list of columns is reported as an invalid option, and so is a text in place of one. -/
theorem build_chain (s : Settings) (sort bucketSize : Value) :
    (sort.isMapping = true ∨ sort = .null → ∀ (column : String) (columns : List String),
      let names := (column :: columns).map Value.str
      let size := if bucketSize.truthy then bucketSize else .int s.aggsBucketSize
      ∃ top below, build (.list names) sort bucketSize s.aggsBucketSize = .ok top ∧
        build (.tuple names) sort bucketSize s.aggsBucketSize = .ok top ∧
        IsChain sort.under? size (column :: columns) (top :: below)) ∧
    ∀ columns : Value, columns.truthy = false ∨ (∃ text, columns = .str text) →
      build columns sort bucketSize s.aggsBucketSize = .error (.noColumns columns) ∧
        ∃ report, (Error.noColumns columns).report? = some report ∧
          report.kind = .invalidOption := by
  constructor
  · intro hsort column columns names size
    obtain ⟨es, vs, hes, hchain, hhead⟩ :=
      exists_chain (answers_given hsort) size (column :: columns)
    obtain _ | ⟨top, below⟩ := vs
    · cases hchain.length
    · have htop : top = .object es := by
        rw [List.head?_cons] at hhead
        split at hhead
        · cases hhead
        · exact Option.some.inj hhead
      subst htop
      exact ⟨_, below, build_ok rfl hes, build_ok rfl hes, hchain⟩
  · intro columns hcolumns
    rw [build, columnsOf_eq_error hcolumns]
    exact ⟨rfl, _, rfl, rfl⟩

/-- A column that stands in the list twice and is called like the count, under a sort order that
mentions it. -/
theorem build_chain_repeated :
    let sort : Value := .object [("_count", .str "asc"), ("year", .str "DESC")]
    (sort.isMapping = true ∨ sort = .null) ∧
      (∃ top below, build (.list [.str "_count", .str "year", .str "_count"]) sort .null 10000 =
          .ok top ∧
        IsChain sort.under? (.int 10000) ["_count", "year", "_count"] (top :: below)) ∧
      build (.str "year") sort .null 10000 = .error (.noColumns (.str "year")) := by
  intro sort
  have hsort : sort.isMapping = true ∨ sort = .null := .inl rfl
  obtain ⟨hchain, herror⟩ := build_chain {} sort .null
  obtain ⟨top, below, htop, -, hbelow⟩ := hchain hsort "_count" ["year", "_count"]
  exact ⟨hsort, ⟨top, below, htop, hbelow⟩, (herror (.str "year") (.inr ⟨_, rfl⟩)).1⟩

end SearchRequest.Aggregation
