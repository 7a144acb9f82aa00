import SearchRequest.Entries
import SearchRequest.Query
/-
What query documents mean to a search engine. `Engine.Holds` reads a document of any shape: a
boolean query is taken apart into its clauses, a nested query asks for a child document, and every
other fragment is a leaf of which the engine alone decides where it holds. The documents that the
compiler writes are then described by one lemma for each kind of query.
-/
namespace SearchRequest

/-- What an engine knows of the documents it searches: where a leaf fragment holds, and which child
documents a document has at a path. -/
structure Engine (Doc : Type) where
  leaf : Value → Doc → Prop
  child : String → Doc → Doc → Prop

namespace Engine

variable {Doc : Type} (E : Engine Doc)

/-- One clause of a boolean query, given the meaning of its entries. An empty `should` asks for
nothing, and `should` is optional where another clause stands beside it. -/
def ClauseHolds (onlyShould : Bool) (d : Doc) : String × List (Doc → Prop) → Prop
  | ("must", ps) | ("filter", ps) => ∀ p ∈ ps, p d
  | ("must_not", ps) => ∀ p ∈ ps, ¬ p d
  | ("should", ps) => onlyShould = true → ps ≠ [] → ∃ p ∈ ps, p d
  | _ => True

/-- A boolean query, given the meaning of the entries of its clauses. -/
def BoolHolds (clauses : List (String × List (Doc → Prop))) (d : Doc) : Prop :=
  ∀ c ∈ clauses, ClauseHolds (clauses.all (·.1 == "should")) d c

/-- The path of a nested query. -/
def pathOf (fields : Entries) : String :=
  match Entries.find? "path" fields with
  | some (.str path) => path
  | _ => ""

mutual

/-- A query document holds of a document. -/
def Holds : Value → Doc → Prop
  | .object es => ObjectHolds es
  | v => E.leaf v

/-- A query document that is a mapping. -/
def ObjectHolds : Entries → Doc → Prop
  | [("match_all", _)] => fun _ => True
  | [("bool", .object clauses)] => BoolHolds (clausesOf clauses)
  | [("nested", .object fields)] => fun d => ∃ c, E.child (pathOf fields) d c ∧ QueryHolds fields c
  | es => E.leaf (.object es)

/-- The clauses of a boolean query, each with the meaning of its entries. -/
def clausesOf : Entries → List (String × List (Doc → Prop))
  | [] => []
  | (word, v) :: rest => (word, entriesOf v) :: clausesOf rest

/-- The entries of a clause: those of a list, or a single query. -/
def entriesOf : Value → List (Doc → Prop)
  | .list vs => itemsOf vs
  | .object es => [ObjectHolds es]
  | v => [E.leaf v]

/-- The queries of a list. -/
def itemsOf : List Value → List (Doc → Prop)
  | [] => []
  | v :: vs => Holds v :: itemsOf vs

/-- The query of a nested query. -/
def QueryHolds : Entries → Doc → Prop
  | [] => fun _ => True
  | (key, v) :: rest => if key = "query" then Holds v else QueryHolds rest

end

/-! ## The documents of queries -/

theorem entriesOf_toValue (q : Query) : E.entriesOf q.toValue = [E.Holds q.toValue] := by
  obtain ⟨key, v, h⟩ := q.exists_toValue_eq_entry
  rw [h]
  rfl

theorem itemsOf_toValues (qs : List Query) :
    E.itemsOf (Query.toValues qs) = qs.map fun q => E.Holds q.toValue := by
  induction qs with
  | nil => rfl
  | cons q qs ih => rw [Query.toValues, itemsOf, ih, List.map_cons]

@[simp] theorem holds_matchAll (d : Doc) : E.Holds Query.matchAll.toValue d := trivial

@[simp] theorem holds_leaf (l : Leaf) (d : Doc) :
    E.Holds (Query.leaf l).toValue d ↔ E.leaf l.toValue d := by
  cases l <;> exact Iff.rfl

theorem boolHolds_one (word : String) (ps : List (Doc → Prop)) (d : Doc) :
    BoolHolds [(word, ps)] d ↔ ClauseHolds (word == "should") d (word, ps) := by
  simp [BoolHolds]

/-- A clause that holds one query is the clause that lists it. -/
@[simp] theorem holds_bool (clause : Clause) (q : Query) (d : Doc) :
    E.Holds (Query.bool clause q).toValue d ↔
      if clause = .mustNot then ¬ E.Holds q.toValue d else E.Holds q.toValue d := by
  have h : E.Holds (Query.bool clause q).toValue d ↔
      BoolHolds [(clause.word, [E.Holds q.toValue])] d := by
    rw [← entriesOf_toValue]; exact Iff.rfl
  rw [h, boolHolds_one]
  cases clause <;> simp [Clause.word, ClauseHolds]

theorem holds_boolList (clause : Clause) (qs : List Query) (d : Doc) :
    E.Holds (Query.boolList clause qs).toValue d ↔
      ClauseHolds (clause.word == "should") d (clause.word, qs.map fun q => E.Holds q.toValue) := by
  rw [← boolHolds_one, ← itemsOf_toValues]
  exact Iff.rfl

@[simp] theorem holds_must (qs : List Query) (d : Doc) :
    E.Holds (Query.boolList .must qs).toValue d ↔ ∀ q ∈ qs, E.Holds q.toValue d := by
  simp [holds_boolList, Clause.word, ClauseHolds]

@[simp] theorem holds_mustNot (qs : List Query) (d : Doc) :
    E.Holds (Query.boolList .mustNot qs).toValue d ↔ ∀ q ∈ qs, ¬ E.Holds q.toValue d := by
  simp [holds_boolList, Clause.word, ClauseHolds]

@[simp] theorem holds_should (qs : List Query) (d : Doc) :
    E.Holds (Query.boolList .should qs).toValue d ↔ qs = [] ∨ ∃ q ∈ qs, E.Holds q.toValue d := by
  have h : (∃ p ∈ qs.map fun q => E.Holds q.toValue, p d) ↔ ∃ q ∈ qs, E.Holds q.toValue d := by
    constructor
    · rintro ⟨_, hp, hd⟩
      obtain ⟨q, hq, rfl⟩ := List.mem_map.1 hp
      exact ⟨q, hq, hd⟩
    · rintro ⟨q, hq, hd⟩
      exact ⟨_, List.mem_map_of_mem hq, hd⟩
  simp only [holds_boolList, Clause.word, ClauseHolds, beq_self_eq_true, forall_const, ne_eq,
    List.map_eq_nil_iff]
  rw [h, Classical.or_iff_not_imp_left]

@[simp] theorem holds_nested (path : String) (q : Query) (scoreMode : String)
    (inner : Option InnerHits) (d : Doc) :
    E.Holds (Query.nested path q scoreMode inner).toValue d ↔
      ∃ c, E.child path d c ∧ E.Holds q.toValue c := by
  exact Iff.rfl

end Engine

end SearchRequest
