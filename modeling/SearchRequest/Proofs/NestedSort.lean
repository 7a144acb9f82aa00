import Mathlib.Data.List.Forall2
import SearchRequest.Proofs.NestedOptions
/-
The path of a nested sort. A payload may leave it to the field, whose first segment it is then.
Options compile to entries that are keyed by the field, so the path is the first segment of the key
as well. Inner hits put the keys under the path of the nested query afterwards, and leave what
belongs to the keys as it is: there the two agree exactly for the fields that start as that path
does (`Options.nested_path_of_key`).
-/
namespace SearchRequest.Field

theorem firstSegment_append (path rest : String) :
    firstSegment (path ++ "." ++ rest) = firstSegment path := by
  have hdot : (path ++ "." ++ rest).toList = path.toList ++ '.' :: rest.toList := by simp
  rw [firstSegment, firstSegment, hdot]
  congr 1
  induction path.toList with
  | nil => rfl
  | cons c cs ih => simp only [List.cons_append, List.takeWhile_cons, ih]

/-- A field under a path starts as the path does. -/
theorem firstSegment_of_isUnder {path field : String} (h : isUnder path field = true) :
    firstSegment field = firstSegment path := by
  obtain ⟨rest, rfl⟩ := isUnder_iff.1 h
  exact firstSegment_append path rest

end SearchRequest.Field

namespace SearchRequest.Sort

/-! ## Entries -/

/-- A payload that sorts by a nested field and leaves the path to the field. -/
structure LeavesPath (payload : Entries) : Prop where
  nested : isSet payload "is_nested" = true
  plain : isSet payload "is_geo" = false
  without : isSet payload "path" = false

/-- The path that an entry is nested at. -/
def Entry.nestedPath? (e : Entry) : Option Value :=
  (Params.at? "nested" e.2).bind (Params.at? "path")

/-- An entry is nested at the first segment of its key. -/
def Entry.NestedAtKey (e : Entry) : Prop :=
  e.nestedPath? = some (.str (Field.firstSegment e.1))

/-- An entry is keyed by a field, and nested at the first segment of its key. -/
structure Entry.AtField (field : String) (e : Entry) : Prop where
  key : e.1 = field
  nested : e.NestedAtKey

/-- What an entry of a field is in inner hits at a path. It is nested at the first segment of the
field as it was written, and this is the first segment of its key exactly if the field starts as the
path does. -/
structure Entry.AtPath (path field : String) (e : Entry) : Prop where
  key : e.1 = field ∨ e.1 = path ++ "." ++ field
  kept : e.nestedPath? = some (.str (Field.firstSegment field))
  nested_iff : e.NestedAtKey ↔ Field.firstSegment field = Field.firstSegment path

theorem presentOr_of_isSet_eq_false {payload : Entries} {key : String}
    (h : isSet payload key = false) (default : Value) : presentOr payload key default = default := by
  unfold isSet presentOr at h
  unfold presentOr
  cases hv : Entries.find? key payload with
  | none => rfl
  | some v =>
    cases ht : v.truthy with
    | false => simp [ht]
    | true => simp [hv, ht] at h

theorem find?_addPresent {payload : Entries} {key : String} {keys : List String}
    (h : key ∉ keys) (spec : Entries) :
    Entries.find? key (addPresent payload keys spec) = Entries.find? key spec := by
  unfold addPresent
  induction keys generalizing spec with
  | nil => rfl
  | cons k keys ih =>
    rw [List.mem_cons, not_or] at h
    rw [List.foldl_cons, ih h.2]
    split
    · rfl
    · rfl
    · exact Entries.find?_insert_other h.1 _ _

/-- An entry by a nested field is at the first segment of the field, when the payload leaves it
the path. -/
theorem nestedPath?_byField {field : String} {payload : Entries} (h : LeavesPath payload) :
    (byField field payload).nestedPath? = some (.str (Field.firstSegment field)) := by
  have hspec : Entries.find? "nested" (addPresent payload ["mode", "missing", "unmapped_type"]
      [("order", order payload)]) = none := find?_addPresent (by decide) _
  simp [byField, Entry.nestedPath?, Params.at?, h.nested, presentOr_of_isSet_eq_false h.without,
    Entries.find?_append, hspec, Entries.find?]

/-- A field whose entry is dropped. -/
def drops (allowId : Bool) (field : String) : Bool :=
  field = idField && !allowId

theorem entry_eq_none_iff {allowId : Bool} {field : String} {payload : Value} :
    entry allowId field payload = .ok none ↔ drops allowId field = true := by
  unfold entry
  constructor
  · intro h
    split at h
    · assumption
    · split at h
      · cases h
      · split at h
        · obtain ⟨e, -, he⟩ := map_ok_iff.1 h
          cases he
        · cases h
  · intro h
    exact if_pos h

theorem eq_byField {allowId : Bool} {field : String} {payload : Value} {es : Entries} {e : Entry}
    (h : entry allowId field payload = .ok (some e)) (hes : mapping? payload = some es)
    (hleft : LeavesPath es) : e = byField field es := by
  unfold entry at h
  split at h
  · cases h
  · split at h
    · cases hes
    · rw [hes] at h
      simpa [ofMapping, hleft.plain, Except.map, eq_comm] using h

/-! ## Sort lists -/

/-- The fields of a sort option that are not dropped, with their payloads. -/
def kept (allowId : Bool) (sort : Entries) : Entries :=
  sort.filter fun x => !drops allowId x.1

/-- The entries of a sort list are those of the kept fields, in order, and an entry has, with its
field, the property `P` if the payload leaves it the path. -/
def ForLeftPaths (P : String → Entry → Prop) (allowId : Bool) (sort : Entries) (es : List Entry) :
    Prop :=
  List.Forall₂ (fun x e => ∀ payload, mapping? x.2 = some payload → LeavesPath payload → P x.1 e)
    (kept allowId sort) es

theorem forall₂_entries {allowId : Bool} {logger : String} {sort : Entries} {es : List Entry}
    (h : (entries allowId logger sort).result = .ok es) :
    List.Forall₂ (fun x e => entry allowId x.1 x.2 = .ok (some e)) (kept allowId sort) es := by
  induction sort generalizing es with
  | nil =>
    cases h
    exact .nil
  | cons x sort ih =>
    obtain ⟨field, payload⟩ := x
    unfold entries at h
    split at h
    · cases h
    · rename_i e he
      have hkept : drops allowId field = false := by
        rw [← Bool.not_eq_true, ← entry_eq_none_iff, he]
        simp
      obtain ⟨more, hmore, hes⟩ := Outcome.result_bind_ok_iff.1 h
      cases hes
      simp only [kept, List.filter_cons, hkept, Bool.not_false, if_true]
      exact .cons he (ih hmore)
    · rename_i hdrop
      obtain ⟨-, -, hmore⟩ := Outcome.result_bind_ok_iff.1 h
      simp only [kept, List.filter_cons, entry_eq_none_iff.1 hdrop, Bool.not_true,
        Bool.false_eq_true, if_false]
      exact ih hmore

theorem forLeftPaths_entries {allowId : Bool} {logger : String} {sort : Entries} {es : List Entry}
    (h : (entries allowId logger sort).result = .ok es) :
    ForLeftPaths Entry.AtField allowId sort es := by
  refine (forall₂_entries h).imp fun x e he payload hpayload hleft => ?_
  rw [eq_byField he hpayload hleft]
  exact ⟨rfl, nestedPath?_byField hleft⟩

/-- Under a path the entries keep what belongs to their keys. All keys start as the path does. -/
theorem ForLeftPaths.under {allowId : Bool} {sort : Entries} {es : List Entry}
    (h : ForLeftPaths Entry.AtField allowId sort es) (path : String) :
    ForLeftPaths (Entry.AtPath path) allowId sort (Sort.under path es) := by
  refine List.forall₂_map_right_iff.2 (List.Forall₂.imp ?_ h)
  rintro ⟨field, given⟩ ⟨key, v⟩ he payload hpayload hleft
  obtain ⟨rfl, hnested⟩ := he payload hpayload hleft
  let key' := if Field.isUnder path key then key else path ++ "." ++ key
  have hkey : key' = key ∨ key' = path ++ "." ++ key := ite_eq_or_eq _ _ _
  have hunder : Field.isUnder path key' = true := isUnder_key path key
  have hkept : Entry.nestedPath? (key', v) = some (.str (Field.firstSegment key)) := hnested
  refine ⟨hkey, hkept, ?_⟩
  rw [Entry.NestedAtKey, hkept, Field.firstSegment_of_isUnder hunder]
  simp

end SearchRequest.Sort

namespace SearchRequest.Options

/-! ## Options -/

/-- The mapping of inner hits at a path has a sort list exactly when the options have one, with the
entries that the options have there. -/
def NestedPaths (env : Environment) (path : String) (v : Value) (hits : Entries) : Prop :=
  ∃ o sorts, read false v = .ok o ∧
    Entries.find? "sort" hits = Option.map (fun es => .list (es.map Sort.Entry.toValue)) sorts ∧
    Option.Rel (Sort.ForLeftPaths (Sort.Entry.AtPath path) env.allowIdSort) o.sort sorts

theorem rel_compileSort {env : Environment} {given : Option Entries}
    {sort : Option (List Sort.Entry)} (h : (compileSort env given).result = .ok sort) :
    Option.Rel (Sort.ForLeftPaths Sort.Entry.AtField env.allowIdSort) given sort := by
  cases given with
  | none =>
    cases h
    exact .none
  | some given =>
    obtain ⟨es, hes, hsort⟩ := Outcome.result_bind_ok_iff.1 h
    cases hsort
    exact .some (Sort.forLeftPaths_entries hes)

theorem rel_compile {env : Environment} {write : Bool} {v : Value} {c : CompiledOptions}
    (h : (compile env write v).result = .ok c) : ∃ o, read write v = .ok o ∧
      Option.Rel (Sort.ForLeftPaths Sort.Entry.AtField env.allowIdSort) o.sort c.sort := by
  obtain ⟨o, ho, htyped⟩ := Outcome.result_bind_ok_iff.1 h
  obtain ⟨sort, hsort, hrest⟩ := Outcome.result_bind_ok_iff.1 htyped
  obtain ⟨-, -, hc⟩ := Outcome.result_bind_ok_iff.1 hrest
  cases hc
  exact ⟨o, ho, rel_compileSort hsort⟩

theorem nestedPaths_compileNested {env : Environment} {path : String} {v : Value} {hits : Entries}
    (h : (compileNested env path v).result = .ok hits) : NestedPaths env path v hits := by
  obtain ⟨c, hc, hflat⟩ := Outcome.result_bind_ok_iff.1 h
  cases hflat
  obtain ⟨o, ho, hsort⟩ := rel_compile hc
  refine ⟨o, c.sort.map (Sort.under path), ho, CompiledOptions.find?_sort_flat _, ?_⟩
  generalize o.sort = given, c.sort = sort at hsort ⊢
  cases hsort with
  | none => exact .none
  | some hes => exact .some (hes.under path)

/-- The size that inner hits have by default takes no place of a sort list. -/
theorem NestedPaths.innerHits {env : Environment} {path : String} {o : Options Value}
    {ignoreUnmapped : Bool} {inner : InnerHits}
    (h : (Compile.innerHits env path o ignoreUnmapped).result = .ok inner) :
    NestedPaths env path (.options o) inner.hits := by
  obtain ⟨hits, hhits, hinner⟩ := Outcome.result_bind_ok_iff.1 h
  cases hinner
  obtain ⟨o', sorts, ho, hfind, hsorts⟩ := nestedPaths_compileNested hhits
  refine ⟨o', sorts, ho, ?_, hsorts⟩
  rw [← hfind]
  cases hits <;> rfl

/-- **A nested path that is left to the field is the first segment of the key.** Options compile
to sort lists of which this holds. Of inner hits it holds for the entries whose field starts as the
path does, and for no others: the path is taken from the field before the key is put under the path
of the inner hits. -/
theorem nested_path_of_key (env : Environment) :
    (∀ write v c, (compile env write v).result = .ok c → ∃ o, read write v = .ok o ∧
      Option.Rel (Sort.ForLeftPaths Sort.Entry.AtField env.allowIdSort) o.sort c.sort) ∧
    (∀ path v hits, (compileNested env path v).result = .ok hits → NestedPaths env path v hits) ∧
    ∀ scope field wheres o scoreMode ignoreUnmapped q, (Compile.condition env scope
        (.innerNested field wheres o scoreMode ignoreUnmapped)).result = .ok q →
      ∃ sub inner, q = .nested (Field.qualify field scope) sub scoreMode (some inner) ∧
        NestedPaths env (Field.qualify field scope) (.options o) inner.hits := by
  refine ⟨fun _ _ _ h => rel_compile h, fun _ _ _ h => nestedPaths_compileNested h, ?_⟩
  intro scope field wheres o scoreMode ignoreUnmapped q h
  obtain ⟨inner, hinner, h'⟩ := Outcome.result_bind_ok_iff.1 h
  obtain ⟨sub, -, hq⟩ := Outcome.result_bind_ok_iff.1 h'
  cases hq
  exact ⟨sub, inner, rfl, .innerHits hinner⟩

/-- A field of the comments in the inner hits of the comments, and outside of them. -/
theorem nested_path_of_key_comments :
    Sort.Entry.NestedAtKey ("comments.likes",
      .object [("order", .str "asc"), ("nested", .object [("path", .str "comments")])]) ∧
    ∃ hits, (compileNested {} "comments" (.object [("sort", .object
        [("comments.likes", .object [("is_nested", .bool true)])])])).result = .ok hits ∧
      NestedPaths {} "comments" (.object [("sort", .object
        [("comments.likes", .object [("is_nested", .bool true)])])]) hits ∧
      hits = [("sort", .list [.entry "comments.likes" (.object
        [("order", .str "asc"), ("nested", .object [("path", .str "comments")])])])] := by
  constructor
  · obtain ⟨o, ho, hsort⟩ := (nested_path_of_key {}).1 false (.object [("sort", .object
      [("comments.likes", .object [("is_nested", .bool true)])])]) _ rfl
    cases ho
    cases hsort with
    | some hentries =>
      cases hentries with
      | cons h _ => exact (h _ rfl ⟨rfl, rfl, rfl⟩).nested
  · exact ⟨_, rfl, (nested_path_of_key {}).2.1 _ _ _ rfl, rfl⟩

/-- A field that does not start as the path does is put under it, and stays nested at its own first
segment. -/
theorem nested_path_left_behind : Sort.LeavesPath [("is_nested", .bool true)] ∧
    ∃ hits, (compileNested {} "comments" (.object [("sort", .object
        [("author.name", .object [("is_nested", .bool true)])])])).result = .ok hits ∧
      ∃ e : Sort.Entry, Entries.find? "sort" hits = some (.list [e.toValue]) ∧
        e.1 = "comments.author.name" ∧ e.nestedPath? = some (.str "author") ∧ ¬e.NestedAtKey := by
  refine ⟨⟨rfl, rfl, rfl⟩, _, rfl, ("comments.author.name",
    .object [("order", .str "asc"), ("nested", .object [("path", .str "author")])]), rfl, rfl, rfl,
    fun h => ?_⟩
  have hpath : some (Value.str "author") = some (.str "comments") := h
  simp at hpath

end SearchRequest.Options
