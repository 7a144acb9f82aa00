import Mathlib.Data.List.Forall2
import SearchRequest.Proofs.Contents
import SearchRequest.Proofs.Fragments
/-
What a search request is assembled from. The search options, the fields with their boosts, the tree,
and the options all write to one document, and nothing of them is lost on the way: the clause of the
search says everything that it was given, it stands once in every way in which the tree can hold,
behind the fragments that the tree has without it, and what is highlighted is what the options say,
or else what the search options say (`Builder.search_assembled`).

Fields and boosts are said by relations that do not look at how the clause is built: `Search.Lists`
for the fields that a value lists, and `Search.StandsFor` for the number that a boost stands for.
-/
namespace SearchRequest

/-! ## Lists of results -/

theorem forall₂_of_mapM_ok {α β : Type} {f : α → Except Error β} {as : List α} {bs : List β}
    (h : as.mapM f = .ok bs) : List.Forall₂ (fun a b => f a = .ok b) as bs := by
  induction as generalizing bs with
  | nil =>
    cases h
    exact .nil
  | cons a as ih =>
    rw [List.mapM_cons] at h
    cases ha : f a with
    | error e =>
      rw [ha] at h
      cases h
    | ok b =>
      cases has : as.mapM f with
      | error e =>
        rw [ha, has] at h
        cases h
      | ok bs' =>
        rw [ha, has] at h
        cases h
        exact .cons ha (ih has)

/-- What is paired with a list that ends in `a` ends in what is paired with `a`. -/
theorem exists_of_forall₂_concat {α β : Type} {R : α → β → Prop} {as : List α} {a : α}
    {bs : List β} (h : List.Forall₂ R (as ++ [a]) bs) :
    ∃ bs' b, bs = bs' ++ [b] ∧ List.Forall₂ R as bs' ∧ R a b := by
  induction as generalizing bs with
  | nil =>
    cases h with
    | cons hb hnil =>
      cases hnil
      exact ⟨[], _, rfl, .nil, hb⟩
  | cons a' as ih =>
    cases h with
    | cons hb hbs =>
      obtain ⟨bs', b, rfl, has, ha⟩ := ih hbs
      exact ⟨_ :: bs', b, rfl, .cons hb has, ha⟩

/-! ## The clause of a search -/

namespace Search

/-- A number that is whole or real. -/
inductive Number
  | whole (i : Int)
  | real (x : Float)

/-- The number is above one. -/
def Number.AboveOne : Number → Prop
  | whole i => 1 < i
  | real x => 1 < x

/-- The number that a boost stands for. It may be written out, as a text or as bytes. -/
inductive StandsFor : Value → Number → Prop
  | int (i : Int) : StandsFor (.int i) (.whole i)
  | float (x : Float) : StandsFor (.float x) (.real x)
  | bool (b : Bool) : StandsFor (.bool b) (.whole (if b then 1 else 0))
  | text {s : String} {x : Float}
      (h : Decimal.readGrouped? (s.toList.map Text.toAsciiDigit) = some x) :
      StandsFor (.str s) (.real x)
  | bytes {b : List UInt8} {cs : List Char} {x : Float} (hascii : Text.ofAscii? b = some cs)
      (h : Decimal.readGrouped? cs = some x) : StandsFor (.bytes b) (.real x)

/-- What the clause holds for a search field and its boost. -/
inductive IsEntry (field boost : Value) : Value → Prop
  | boosted {n : Number} (h : StandsFor boost n) (habove : n.AboveOne) :
      IsEntry field boost (.str (field.asText ++ "^" ++ boost.asText))
  | bare {n : Number} (h : StandsFor boost n) (hbelow : ¬ n.AboveOne) : IsEntry field boost field

/-- The search fields that a value lists, each with its boost: a single field, a mapping from fields
to boosts, or the items of anything else. Where none is given the boost is one. -/
inductive Lists : Value → List (Value × Value) → Prop
  | single (s : String) : Lists (.str s) [(.str s, .int 1)]
  | object (es : Entries) : Lists (.object es) (es.map fun e => (.str e.1, e.2))
  | table (rows : Rows) : Lists (.table rows) rows
  | items {fields : Value} {vs : List Value} (hstr : ∀ s, fields ≠ .str s)
      (hmap : fields.isMapping = false) (h : fields.items = .ok vs) :
      Lists fields (vs.map (·, .int 1))

/-- The search fields of the clause: none when what is given counts as absent, and otherwise one
entry for each field that is listed, in order. -/
def Names (fields : Value) (names : List Value) : Prop :=
  if fields.truthy then
    ∃ pairs, Lists fields pairs ∧
      List.Forall₂ (fun pair name => IsEntry pair.1 pair.2 name) pairs names
  else names = []

/-- The clause of a search, from the query, the fields and the search options: the query, the search
fields if there are any, and that several are searched as one, under every search option other than
the highlight and the caller metadata. -/
def IsClause (query fields : Value) (options clause : Entries) : Prop :=
  ∃ names, Names fields names ∧ clause = Entries.overlay
    ([("query", query)] ++ (if fields.truthy then [("fields", .list names)] else []) ++
      (if 2 ≤ names.length then [("type", .str "cross_fields")] else []))
    (Entries.erase highlightKey (Entries.erase Params.metaKey options))

theorem StandsFor.unique {boost : Value} {n n' : Number} (h : StandsFor boost n)
    (h' : StandsFor boost n') : n = n' := by
  cases h with
  | int | float | bool =>
    cases h'
    rfl
  | text h =>
    cases h' with
    | text h' => rw [Option.some.inj (h.symm.trans h')]
  | bytes hascii h =>
    cases h' with
    | bytes hascii' h' =>
      obtain rfl := Option.some.inj (hascii.symm.trans hascii')
      rw [Option.some.inj (h.symm.trans h')]

theorem IsEntry.unique {field boost name name' : Value} (h : IsEntry field boost name)
    (h' : IsEntry field boost name') : name = name' := by
  cases h with
  | boosted hn habove =>
    cases h' with
    | boosted => rfl
    | bare hn' hbelow => exact absurd (hn.unique hn' ▸ habove) hbelow
  | bare hn hbelow =>
    cases h' with
    | boosted hn' habove => exact absurd (hn'.unique hn ▸ habove) hbelow
    | bare => rfl

theorem Lists.unique {fields : Value} {pairs pairs' : List (Value × Value)}
    (h : Lists fields pairs) (h' : Lists fields pairs') : pairs = pairs' := by
  cases h with
  | single s =>
    cases h' with
    | single => rfl
    | items hstr => exact absurd rfl (hstr s)
  | object =>
    cases h' with
    | object => rfl
    | items _ hmap => cases hmap
  | table =>
    cases h' with
    | table => rfl
    | items _ hmap => cases hmap
  | items hstr hmap h =>
    cases h' with
    | single s => exact absurd rfl (hstr s)
    | object | table => cases hmap
    | items _ _ h' => rw [Except.ok.inj (h.symm.trans h')]

/-- What is given as search fields determines the search fields of the clause. -/
theorem Names.unique {fields : Value} {names names' : List Value} (h : Names fields names)
    (h' : Names fields names') : names = names' := by
  unfold Names at h h'
  by_cases htruthy : fields.truthy = true
  · rw [if_pos htruthy] at h h'
    obtain ⟨pairs, hpairs, hnames⟩ := h
    obtain ⟨pairs', hpairs', hnames'⟩ := h'
    obtain rfl := hpairs.unique hpairs'
    exact List.right_unique_forall₂' (fun _ _ _ hname hname' => hname.unique hname') hnames hnames'
  · rw [if_neg htruthy] at h h'
    rw [h, h']

/-- The query, the search fields and the search options determine the clause. -/
theorem IsClause.unique {query fields : Value} {options clause clause' : Entries}
    (h : IsClause query fields options clause) (h' : IsClause query fields options clause') :
    clause = clause' := by
  obtain ⟨names, hnames, rfl⟩ := h
  obtain ⟨names', hnames', rfl⟩ := h'
  rw [hnames.unique hnames']

theorem exists_standsFor {boost : Value} {above : Bool} (h : isBoosted boost = some above) :
    ∃ n, StandsFor boost n ∧ (above = true ↔ n.AboveOne) := by
  unfold isBoosted at h
  split at h
  case h_1 i =>
    cases h
    exact ⟨.whole i, .int i, decide_eq_true_iff⟩
  case h_2 x =>
    cases h
    exact ⟨.real x, .float x, decide_eq_true_iff⟩
  case h_3 b =>
    cases h
    refine ⟨_, .bool b, ?_⟩
    cases b <;> simp [Number.AboveOne]
  case h_4 s =>
    obtain ⟨x, hx, rfl⟩ := Option.map_eq_some_iff.1 h
    exact ⟨.real x, .text hx, decide_eq_true_iff⟩
  case h_5 b =>
    obtain ⟨x, hx, rfl⟩ := Option.map_eq_some_iff.1 h
    obtain ⟨cs, hcs, hread⟩ := Option.bind_eq_some_iff.1 hx
    exact ⟨.real x, .bytes hcs hread, decide_eq_true_iff⟩
  case h_6 => cases h

theorem isEntry_of_boostedField {field boost name : Value}
    (h : boostedField field boost = .ok name) : IsEntry field boost name := by
  unfold boostedField at h
  split at h
  · rename_i habove
    cases h
    obtain ⟨n, hn, hiff⟩ := exists_standsFor habove
    exact .boosted hn (hiff.1 rfl)
  · rename_i hbelow
    cases h
    obtain ⟨n, hn, hiff⟩ := exists_standsFor hbelow
    exact .bare hn fun habove => Bool.false_ne_true (hiff.2 habove)
  · cases h

/-- A field without a boost of its own stands for itself. -/
theorem isEntry_self (field : Value) : IsEntry field (.int 1) field :=
  .bare (.int 1) (Int.lt_irrefl 1)

theorem exists_lists {fields : Value} {names : List Value} (h : boostedFields fields = .ok names) :
    ∃ pairs, Lists fields pairs ∧
      List.Forall₂ (fun pair name => IsEntry pair.1 pair.2 name) pairs names := by
  unfold boostedFields at h
  split at h
  case h_1 s =>
    cases h
    exact ⟨_, .single s, .cons (isEntry_self _) .nil⟩
  case h_2 es =>
    refine ⟨_, .object es, ?_⟩
    rw [List.forall₂_map_left_iff]
    exact (forall₂_of_mapM_ok h).imp fun _ _ hname => isEntry_of_boostedField hname
  case h_3 rows =>
    exact ⟨_, .table rows, (forall₂_of_mapM_ok h).imp fun _ _ hname => isEntry_of_boostedField hname⟩
  case h_4 hstr hobject htable =>
    have hitems : fields.items = .ok names := by
      cases hvs : fields.items with
      | ok vs =>
        rw [hvs] at h
        cases h
        rfl
      | error m =>
        rw [hvs] at h
        cases h
    have hmap : fields.isMapping = false := by
      cases fields with
      | object es => exact absurd rfl (hobject es)
      | table rows => exact absurd rfl (htable rows)
      | _ => rfl
    refine ⟨_, .items hstr hmap hitems, ?_⟩
    rw [List.forall₂_map_left_iff, List.forall₂_same]
    exact fun name _ => isEntry_self name

theorem exists_names {fields : Value} {es : Entries} (h : fieldEntries fields = .ok es) :
    ∃ names, Names fields names ∧
      es = (if fields.truthy then [("fields", .list names)] else []) ++
        (if 2 ≤ names.length then [("type", .str "cross_fields")] else []) := by
  unfold fieldEntries at h
  by_cases htruthy : fields.truthy = true
  · rw [if_pos htruthy] at h
    cases hnames : boostedFields fields with
    | error e =>
      rw [hnames] at h
      cases h
    | ok names =>
      rw [hnames] at h
      cases h
      refine ⟨names, ?_, ?_⟩
      · rw [Names, if_pos htruthy]
        exact exists_lists hnames
      · rw [if_pos htruthy]
        rfl
  · rw [if_neg htruthy] at h
    cases h
    refine ⟨[], ?_, ?_⟩
    · rw [Names, if_neg htruthy]
    · rw [if_neg htruthy]
      rfl

theorem isClause_of_parameters {query fields : Value} {options clause : Entries}
    (h : parameters query fields (Entries.erase Params.metaKey options) = .ok clause) :
    IsClause query fields options clause := by
  unfold parameters at h
  cases hes : fieldEntries fields with
  | error e =>
    rw [hes] at h
    cases h
  | ok es =>
    rw [hes] at h
    cases h
    obtain ⟨names, hnames, rfl⟩ := exists_names hes
    exact ⟨names, hnames, rfl⟩

/-- The highlight of the search options is no part of the clause. -/
theorem IsClause.highlight_notMem {query fields : Value} {options clause : Entries}
    (h : IsClause query fields options clause) : highlightKey ∉ Entries.keys clause := by
  obtain ⟨names, -, rfl⟩ := h
  intro hk
  rcases List.mem_append.1 (Entries.keys_overlay_subset _ _ hk) with hk | hk
  · have hbase : ∀ k ∈ Entries.keys ([("query", query)] ++
        (if fields.truthy then [("fields", .list names)] else []) ++
        (if 2 ≤ names.length then [("type", .str "cross_fields")] else [])),
        k ∈ ["query", "fields", "type"] := by
      intro k hk
      by_cases hfields : fields.truthy = true <;> by_cases hseveral : 2 ≤ names.length <;>
        simp only [hfields, hseveral, if_true, if_false, Bool.false_eq_true, Entries.keys,
          List.map_append, List.map_cons, List.map_nil, List.append_nil, List.mem_append,
          List.mem_cons, List.not_mem_nil, or_false] at hk ⊢ <;> grind
    exact absurd (hbase _ hk) (by decide)
  · simp [Entries.keys, Entries.erase] at hk

end Search

/-! ## The clause among the fragments -/

/-- The document of a tree with the clause of a search: alone where the tree asks for nothing, and
otherwise behind what the conditions of the tree yield, in each of the ways in which it can hold. -/
inductive Splices (env : Environment) (clause : Value) : Option Where → Value → Prop
  | noTree : Splices env clause none clause
  | noBranch : Splices env clause (some (.any [])) clause
  | only {c : Condition} {f : Value} (h : c.Yields env none f) :
      Splices env clause (some (.only c)) (.conjunction [f, clause])
  | all {cs : List Condition} {fs : List Value} (h : List.Forall₂ (Condition.Yields env none) cs fs) :
      Splices env clause (some (.all cs)) (.conjunction (fs ++ [clause]))
  | any {bs : List (List Condition)} {fss : List (List Value)} (hbs : bs ≠ [])
      (h : List.Forall₂ (List.Forall₂ (Condition.Yields env none)) bs fss) :
      Splices env clause (some (.any bs)) (.entry "bool" (.entry "should"
        (.list (fss.map fun fs => .conjunction (fs ++ [clause])))))

/-- The fragment of a search clause. -/
def Search.fragment (clause : Entries) : Value :=
  .entry "query_string" (.object clause)

namespace Compile

variable {env : Environment} {clause : Entries}

/-- The conditions of a conjunction with the search clause, compiled. -/
theorem conditions_clause {cs : List Condition} {qs : List Query}
    (h : List.Forall₂ (fun c q => (condition env none c).result = .ok q)
      (cs ++ [Search.clause (.object clause)]) qs) :
    ∃ fs, List.Forall₂ (Condition.Yields env none) cs fs ∧
      (Query.boolList .must qs).toValue = .conjunction (fs ++ [Search.fragment clause]) := by
  obtain ⟨qs', q, rfl, hcs, hclause⟩ := exists_of_forall₂_concat h
  have hq : Query.leaf (.queryString clause) = q := Except.ok.inj hclause
  refine ⟨Query.toValues qs', Condition.forall₂_yields hcs, ?_⟩
  rw [← hq, Query.toValue, Query.toValues_eq_map, Query.toValues_eq_map, List.map_append]
  rfl

theorem branches_clause {bs : List (List Condition)} {qss : List (List Query)}
    (h : List.Forall₂ (fun b qs => List.Forall₂ (fun c q => (condition env none c).result = .ok q)
      (b ++ [Search.clause (.object clause)]) qs) bs qss) :
    ∃ fss, List.Forall₂ (List.Forall₂ (Condition.Yields env none)) bs fss ∧
      (qss.map (.boolList .must)).map Query.toValue =
        fss.map fun fs => .conjunction (fs ++ [Search.fragment clause]) := by
  induction h with
  | nil => exact ⟨[], .nil, rfl⟩
  | cons hb _ ih =>
    obtain ⟨fs, hfs, hdocument⟩ := conditions_clause hb
    obtain ⟨fss, hfss, hdocuments⟩ := ih
    refine ⟨fs :: fss, .cons hfs hfss, ?_⟩
    rw [List.map_cons, List.map_cons, List.map_cons, hdocument, hdocuments]

/-- A tree that compiles with the clause of a search holds the clause in its place. -/
theorem splices_tree {t : Option Where} {q : Query}
    (h : (tree env none (Search.splice (Search.clause (.object clause)) t)).result = .ok q) :
    Splices env (Search.fragment clause) t q.toValue := by
  match t with
  | none =>
    cases h
    exact .noTree
  | some (.any []) =>
    cases h
    exact .noBranch
  | some (.only c) =>
    obtain ⟨qs, hqs, hq⟩ := Outcome.result_bind_ok_iff.1 h
    cases hq
    have hpair : List.Forall₂ (fun c q => (condition env none c).result = .ok q)
        ([c] ++ [Search.clause (.object clause)]) qs := forall₂_conditions hqs
    obtain ⟨fs, hfs, hdocument⟩ := conditions_clause hpair
    rw [hdocument]
    cases hfs with
    | cons hf hnil =>
      cases hnil
      exact .only hf
  | some (.all cs) =>
    obtain ⟨qs, hqs, hq⟩ := Outcome.result_bind_ok_iff.1 h
    cases hq
    obtain ⟨fs, hfs, hdocument⟩ := conditions_clause (forall₂_conditions hqs)
    rw [hdocument]
    exact .all hfs
  | some (.any (b :: bs)) =>
    obtain ⟨qs, hqs, hq⟩ := Outcome.result_bind_ok_iff.1 h
    cases hq
    obtain ⟨qss, rfl, hall⟩ := forall₂_branches hqs
    have hfull : ((b :: bs).map (· ++ [Search.clause (.object clause)])).filter (!·.isEmpty) =
        (b :: bs).map (· ++ [Search.clause (.object clause)]) := by
      rw [List.filter_eq_self, List.forall_mem_map]
      intro b' _
      simp
    rw [hfull, List.forall₂_map_left_iff] at hall
    obtain ⟨fss, hfss, hdocuments⟩ := branches_clause hall
    rw [Query.toValue, Query.toValues_eq_map, hdocuments]
    exact .any (List.cons_ne_nil b bs) hfss

end Compile

/-! ## What is highlighted -/

namespace Params

theorem find?_mergeEntry_other {k : String} {e : String × Value} (h : k ≠ e.1) (es : Entries) :
    Entries.find? k (mergeEntry es e) = Entries.find? k es := by
  unfold mergeEntry
  split
  · exact Entries.find?_insert_other h _ es
  · exact Entries.find?_insert_other h _ es

theorem find?_mergeEntries_other {k : String} {fragment : Entries} (h : ∀ e ∈ fragment, k ≠ e.1)
    (es : Entries) : Entries.find? k (mergeEntries es fragment) = Entries.find? k es := by
  induction fragment generalizing es with
  | nil => rfl
  | cons e fragment ih =>
    have hrest : ∀ e' ∈ fragment, k ≠ e'.1 := fun e' he' => h e' (List.mem_cons_of_mem _ he')
    have hfirst : k ≠ e.1 := h e List.mem_cons_self
    exact (ih hrest (mergeEntry es e)).trans (find?_mergeEntry_other hfirst es)

/-- What options say about the body counts before what stands there. -/
theorem inBody?_mergeEntries {es body : Entries} (hbody : Entries.find? "body" es = some (.object body))
    (k : String) (c : CompiledOptions) :
    inBody? k (.object (mergeEntries es c.params)) =
      (Entries.find? k c.body).or (Entries.find? k body) := by
  have henvelope : ∀ e ∈ c.envelope, "body" ≠ e.1 := by
    intro e he heq
    have hmem : e.1 ∈ ["size", "from", "refresh"] :=
      c.keys_envelope_sublist.subset (List.mem_map_of_mem he)
    rw [← heq] at hmem
    exact absurd hmem (by decide)
  have hkept : Entries.find? "body" (mergeEntries es c.envelope) = some (.object body) := by
    rw [find?_mergeEntries_other henvelope, hbody]
  have hoverlay : Entries.overlay [] c.body = c.body := by
    rw [Entries.overlay_of_new (c.keys_body_sublist.nodup (by decide)) fun _ _ => List.not_mem_nil,
      List.nil_append]
  have hsplit : mergeEntries es c.params = mergeEntries (mergeEntries es c.envelope)
      (if c.body.isEmpty then [] else [("body", .object c.body)]) := List.foldl_append
  rw [hsplit, inBody?, at?]
  by_cases hempty : c.body.isEmpty = true
  · rw [if_pos hempty]
    have hnone : Entries.find? k c.body = none := by
      rw [List.isEmpty_iff.1 hempty]
      rfl
    rw [hnone]
    show (Entries.find? "body" (mergeEntries es c.envelope)).bind (at? k) = _
    rw [hkept]
    rfl
  · rw [if_neg hempty]
    have hmerged : Entries.find? "body" (mergeEntries (mergeEntries es c.envelope)
        [("body", .object c.body)]) = some (.object (Entries.overlay body c.body)) := by
      show Entries.find? "body" (mergeEntry _ _) = _
      simp only [mergeEntry, hkept]
      exact Entries.find?_insert_self _ _ _
    rw [hmerged]
    show Entries.find? k (Entries.overlay body c.body) = _
    rw [Entries.find?_overlay, hoverlay]

theorem at?_put_other {k key : String} (hk : k ≠ key) (v x : Value) :
    at? k (v.put key x) = at? k v := by
  cases v with
  | object es => exact Entries.find?_insert_other hk x es
  | _ => rfl

/-- Changing the query leaves the rest of the body. -/
theorem inBody?_mapQuery {f : Value → Value} {params params' : Value}
    (h : mapQuery f params = .ok params') {k : String} (hk : k ≠ "query") :
    inBody? k params' = inBody? k params := by
  simp only [mapQuery] at h
  split at h
  · cases h
    cases params with
    | object es =>
      have hfound (body : Value) : inBody? k ((Value.object es).put "body" body) = at? k body := by
        show (Entries.find? "body" (Entries.insert "body" body es)).bind (at? k) = _
        rw [Entries.find?_insert_self]
        rfl
      rw [hfound, at?_put_other hk]
      show _ = (Entries.find? "body" es).bind (at? k)
      cases hfind : Entries.find? "body" es <;> simp [Value.under?, hfind, at?, Entries.find?]
    | _ => rfl
  · cases h

/-- Wrapping the query leaves the rest of the body. -/
theorem inBody?_wrap {r : Registry} {params params' : Value} (h : (wrap params r).1 = .ok params')
    {k : String} (hk : k ≠ "query") : inBody? k params' = inBody? k params := by
  have hclauses : ∀ {params₁ : Value}, (wrapClauses params r).1 = .ok params₁ →
      inBody? k params₁ = inBody? k params := by
    intro params₁ h₁
    simp only [wrapClauses] at h₁
    split at h₁
    · cases h₁
      rfl
    · exact inBody?_mapQuery h₁ hk
  have hfunction : ∀ {params₁ : Value} {r₁ : Registry}, (wrapFunction params₁ r₁).1 = .ok params' →
      inBody? k params' = inBody? k params₁ := by
    intro params₁ r₁ h₁
    simp only [wrapFunction] at h₁
    split at h₁
    · cases h₁
      rfl
    · exact inBody?_mapQuery h₁ hk
  unfold wrap at h
  split at h
  · rename_i params₁ r₁ hstep
    exact (hfunction h).trans (hclauses (congrArg Prod.fst hstep))
  · exact hclauses h

end Params

namespace CompiledOptions

theorem find?_highlight_body (c : CompiledOptions) :
    Entries.find? Search.highlightKey c.body = c.highlight.map .object := by
  simp [body, Entries.find?_append, Entries.find?_ofOption, Search.highlightKey]

end CompiledOptions

namespace Search

/-- The search options put their highlight into the body when it counts as present. -/
theorem find?_highlight_bodyEntries (options : Entries) :
    Entries.find? highlightKey (bodyEntries options) =
      (Entries.find? highlightKey options).filter Value.truthy := by
  unfold bodyEntries
  cases Entries.find? highlightKey options with
  | none => rfl
  | some v =>
    by_cases hv : v.truthy = true
    · simp [hv, Entries.find?, Option.filter]
    · simp [hv, Entries.find?, Option.filter]

end Search

/-! ## Search requests -/

theorem Options.exists_plain_eq {options : Value} {es : Entries}
    (h : withoutMeta options = .object es) :
    ∃ so, plain options = .object so ∧ es = Entries.erase Params.metaKey so := by
  unfold withoutMeta at h
  split at h
  · rename_i so hso
    exact ⟨so, hso, (Value.object.inj h).symm⟩
  · rename_i hother
    exact absurd h (hother es)

namespace Builder

/-- What is highlighted in the document of a search. -/
theorem highlight_assembled {env : Environment} {index columns options q : Value} {so es : Entries}
    (h : (assemble env false (heading index .null) (Search.bodyEntries so ++ [("query", q)]) columns
      options).result = .ok es) :
    ∃ o, Options.read false options = .ok o ∧
      Params.inBody? Search.highlightKey (.object es) = (o.highlights.map .object).or
        ((Entries.find? Search.highlightKey so).filter Value.truthy) := by
  obtain ⟨entries, hentries, hrest⟩ := Outcome.result_bind_ok_iff.1 h
  obtain ⟨c, hc, hes⟩ := Outcome.result_bind_ok_iff.1 hrest
  obtain ⟨source, -, rfl⟩ := sourceEntries_ok hentries
  obtain ⟨o, ho, hc'⟩ := Outcome.result_bind_ok_iff.1 hc
  obtain ⟨sort, -, hc''⟩ := Outcome.result_bind_ok_iff.1 hc'
  have hhighlight : c.highlight = o.highlights := by
    cases hc''
    rfl
  cases hes
  refine ⟨o, ho, ?_⟩
  have hbody : Entries.find? "body" (heading index .null ++ [("body", .object
      (Search.bodyEntries so ++ [("query", q)] ++ Entries.ofOption "_source" source))]) =
        some (.object
          (Search.bodyEntries so ++ [("query", q)] ++ Entries.ofOption "_source" source)) := by
    rw [Entries.find?_append, find?_body_heading]
    rfl
  have hquery : Entries.find? Search.highlightKey [("query", q)] = none := rfl
  have hsource : Entries.find? Search.highlightKey (Entries.ofOption "_source" source) = none := by
    rw [Entries.find?_ofOption]
    rfl
  rw [Params.inBody?_mergeEntries hbody, CompiledOptions.find?_highlight_body, hhighlight,
    Entries.find?_append, Entries.find?_append, hquery, hsource, Option.or_none, Option.or_none,
    Search.find?_highlight_bodyEntries]

theorem search_highlight {b : Builder} {s : Settings}
    {index query searchOptions wheres options fields columns : Value} {req : Request}
    (h : (b.search s index query searchOptions wheres options fields columns).result = .ok req) :
    ∃ so o, Options.withoutMeta searchOptions = .object so ∧
      Options.read false (Options.withoutMeta options) = .ok o ∧
      Params.inBody? Search.highlightKey req.params = (o.highlights.map .object).or
        ((Entries.find? Search.highlightKey so).filter Value.truthy) := by
  obtain ⟨es, params, hes, hparams, rfl⟩ := finish_ok h
  obtain ⟨v, hv, hes₁⟩ := Outcome.result_bind_ok_iff.1 hes
  cases v with
  | object so =>
    obtain ⟨v', hv', hes₂⟩ := Outcome.result_bind_ok_iff.1 hes₁
    obtain ⟨ps, -, hes₃⟩ := Outcome.result_bind_ok_iff.1 hes₂
    obtain ⟨t, -, hes₄⟩ := Outcome.result_bind_ok_iff.1 hes₃
    obtain ⟨q, -, hes₅⟩ := Outcome.result_bind_ok_iff.1 hes₄
    obtain ⟨hso, -⟩ := prepareOptions_ok hv
    obtain ⟨rfl, -⟩ := prepareOptions_ok hv'
    obtain ⟨o, ho, hhighlight⟩ := highlight_assembled hes₅
    have hwrap : Params.inBody? Search.highlightKey params =
        Params.inBody? Search.highlightKey (.object es) := Params.inBody?_wrap hparams (by decide)
    exact ⟨so, o, hso.symm, ho, hwrap.trans hhighlight⟩
  | _ => cases hes₁

/-- **A search request is assembled without loss.** Its clause is the query, the search fields and
every search option but the highlight. Before anything registered is wrapped around it, the query
holds the clause in every way in which the tree can hold, behind the fragments of the tree. And what
is highlighted is what the options say when that is not null, or else what the search options say
when that counts as present. -/
theorem search_assembled {b : Builder} {s : Settings}
    {index query searchOptions wheres options fields columns : Value} {req : Request}
    (h : (b.search s index query searchOptions wheres options fields columns).result = .ok req) :
    ∃ so clause t o nested document,
      Options.plain searchOptions = .object so ∧
      Search.IsClause query fields so clause ∧ Search.highlightKey ∉ Entries.keys clause ∧
      (Where.ofArgument wheres).result = .ok t ∧
      Splices (b.environment s) (Search.fragment clause) t document ∧
      Options.read false (Options.withoutMeta options) = .ok o ∧
      (Visited.tree? t).mapM Options.ofNested = .ok nested ∧
      Params.query? req.params = some
        (Params.scored (o.randomScore.or (Options.lastScore nested))
          (Params.filtered (nested.flatMap Options.geoClauses ++ o.geoClauses) document)) ∧
      Params.inBody? Search.highlightKey req.params = (o.highlights.map .object).or
        ((Entries.find? Search.highlightKey so).filter Value.truthy) := by
  obtain ⟨es, clause, hso, hclause, t, q, nested, o, ht, hq, hnested, ho, hdelivers⟩ :=
    search_delivers h
  obtain ⟨es', o', hso', ho', hhighlight⟩ := search_highlight h
  obtain rfl : es' = es := Value.object.inj (hso'.symm.trans hso)
  obtain rfl : o' = o := Except.ok.inj (ho'.symm.trans ho)
  obtain ⟨so, hplain, rfl⟩ := Options.exists_plain_eq hso
  have hisClause : Search.IsClause query fields so clause := Search.isClause_of_parameters hclause
  have hmeta : Entries.find? Search.highlightKey (Entries.erase Params.metaKey so) =
      Entries.find? Search.highlightKey so := Entries.find?_erase_other (by decide) so
  rw [hmeta] at hhighlight
  exact ⟨so, clause, t, o', nested, q.toValue, hplain, hisClause, hisClause.highlight_notMem, ht,
    Compile.splices_tree hq, ho, hnested, hdelivers.query, hhighlight⟩

/-- Boosted fields, a search option that replaces a part of the clause, a branch without conditions,
and a highlight in the options over that of the search options. -/
theorem search_assembled_boosted :
    let so : Entries := [("highlight", .object [("a", .object [])]), ("type", .str "best_fields")]
    let fields : Value := .object [("title", .int 2), ("body", .bool true)]
    let wheres : Value :=
      .object [("or", .list [.object [], .object [("and", .list [.object [("name", .str "x")]])]])]
    let options : Value := .object [("highlights", .object [("title", .object [])])]
    let clause : Entries := [("query", .str "dune"),
      ("fields", .list [.str "title^2", .str "body"]), ("type", .str "best_fields")]
    let b : Builder := {}
    ∃ req, (b.search {} (.str "posts") (.str "dune") (.object so) wheres options fields
        .null).result = .ok req ∧
      Params.query? req.params = some (.entry "bool" (.entry "should" (.list
        [.conjunction [Search.fragment clause],
          .conjunction [.entry "match" (.entry "name" (.str "x")), Search.fragment clause]]))) ∧
      Params.inBody? "highlight" req.params = some (.object [("title", .object [])]) := by
  intro so fields wheres options clause b
  obtain ⟨req, hreq⟩ : ∃ req, (b.search {} (.str "posts") (.str "dune") (.object so) wheres options
      fields .null).result = .ok req := exists_ok_of_isOk (by decide +kernel)
  obtain ⟨so', clause', t, o, nested, document, hplain, hclause, -, ht, hsplices, ho, hnested, hquery,
    hhighlight⟩ := search_assembled hreq
  cases hplain
  cases ht
  cases ho
  cases hnested
  have htitle : Search.IsEntry (.str "title") (.int 2) (.str "title^2") :=
    .boosted (.int 2) (by decide : (1 : Int) < 2)
  have hbody : Search.IsEntry (.str "body") (.bool true) (.str "body") :=
    .bare (.bool true) (by decide : ¬ (1 : Int) < 1)
  have hnames : Search.Names fields [.str "title^2", .str "body"] :=
    ⟨_, .object _, .cons htitle (.cons hbody .nil)⟩
  obtain rfl : clause' = clause := hclause.unique ⟨_, hnames, rfl⟩
  refine ⟨req, hreq, ?_, hhighlight⟩
  rw [hquery]
  cases hsplices with
  | any _ hbranches =>
    obtain _ | ⟨hempty, hrest⟩ := hbranches
    obtain _ | ⟨hname, hnone⟩ := hrest
    cases hnone
    cases hempty
    obtain _ | ⟨hyields, hnone⟩ := hname
    cases hnone
    obtain ⟨q, hq, rfl⟩ := hyields {}
    cases hq
    rfl

end Builder

end SearchRequest
