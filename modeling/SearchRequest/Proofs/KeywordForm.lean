import SearchRequest.Proofs.Complement
import SearchRequest.Proofs.Meaning
/-
The field that an exact comparison uses. `exact`, `in` and `nin` ask the resolver for the keyword
form of the field in its scope, and so they agree wherever `exact` compiles. They differ in what
happens without a keyword form: `exact` fails, and the other two fall back to the field itself.

The keyword form is said here by the types alone: a field of the keyword type is its own keyword
form, also when it ends in the suffix, and the field below it is looked at only when it is not.
-/
namespace SearchRequest

namespace KeywordResolver

variable {types : FieldTypes} {suffix field keyword : String}

/-- The path is reported with the keyword type. -/
def HasKeywordType (types : FieldTypes) (path : String) : Prop :=
  Entries.find? path types = some (.str "keyword")

/-- What stands for the exact form of a field. -/
inductive KeywordForm (types : FieldTypes) (suffix field : String) : String → Prop
  | itself (h : HasKeywordType types field) : KeywordForm types suffix field field
  | below (hself : ¬ HasKeywordType types field)
      (h : HasKeywordType types (field ++ "." ++ suffix)) :
      KeywordForm types suffix field (field ++ "." ++ suffix)

theorem KeywordForm.hasKeywordType (h : KeywordForm types suffix field keyword) :
    HasKeywordType types keyword := by
  cases h with
  | itself h => exact h
  | below _ h => exact h

/-- A field with a name has no empty keyword form. -/
theorem KeywordForm.ne_empty (h : KeywordForm types suffix field keyword) (hfield : field ≠ "") :
    keyword ≠ "" := by
  cases h with
  | itself => exact hfield
  | below => simp [hfield]

theorem isKeyword_iff {path : String} : isKeyword types path ↔ HasKeywordType types path := by
  unfold isKeyword HasKeywordType
  split
  case h_1 t ht => simp [ht]
  case h_2 hne =>
    constructor
    · intro h
      cases h
    · intro h
      exact absurd h (hne "keyword")

instance (types : FieldTypes) (path : String) : Decidable (HasKeywordType types path) :=
  decidable_of_iff _ isKeyword_iff

theorem resolve_byType_iff :
    (byType types suffix).resolve field = some keyword ↔
      KeywordForm types suffix field keyword := by
  constructor
  · intro h
    simp only [resolve] at h
    split at h
    case isTrue hself =>
      cases h
      exact .itself (isKeyword_iff.1 hself)
    case isFalse hself =>
      obtain ⟨hbelow, heq⟩ := Option.ite_none_right_eq_some.1 h
      cases heq
      exact .below (mt isKeyword_iff.2 hself) (isKeyword_iff.1 hbelow)
  · intro h
    cases h with
    | itself h =>
      exact if_pos (isKeyword_iff.2 h)
    | below hself h =>
      have hnot := mt isKeyword_iff.1 hself
      exact (if_neg hnot).trans (if_pos (isKeyword_iff.2 h))

end KeywordResolver

open KeywordResolver (HasKeywordType KeywordForm resolve_byType_iff)

/-- A field with a name has one in every scope. -/
theorem Field.qualify_ne_empty {field : String} (h : field ≠ "") (scope : Option String) :
    qualify field scope ≠ "" := by
  unfold qualify
  split
  case h_1 => exact h
  case h_2 path =>
    split
    · exact h
    · split
      · exact h
      · simp [h]

/-! ## The field of a comparison -/

namespace Environment

variable (env : Environment) {types : FieldTypes} {suffix field : String}

/-- The environment with exact forms by the types of the fields. -/
def withTypes (types : FieldTypes) (suffix : String) : Environment :=
  { env with resolver := some (.byType types suffix), bypass := false }

/-- The environment with fields taken as they are, whatever answers for their exact forms. -/
def bypassing (resolver : Option KeywordResolver) : Environment :=
  { env with resolver, bypass := true }

/-- The environment with nothing that answers for exact forms. -/
def unresolved (bypass : Bool) : Environment :=
  { env with resolver := none, bypass }

/-- Every operator uses the keyword form of a field that has one. -/
theorem keywordField_of_form {keyword : String} (h : KeywordForm types suffix field keyword)
    (hfield : field ≠ "") (op : Operator) :
    (env.withTypes types suffix).keywordField op field = .ok keyword := by
  have hresolve : (env.withTypes types suffix).resolve field = some keyword :=
    resolve_byType_iff.2 h
  have hempty : keyword.isEmpty = false := by
    simpa using h.ne_empty hfield
  have hnamed : ((env.withTypes types suffix).resolve field).filter (!·.isEmpty) =
      some keyword := by
    rw [hresolve, Option.filter_some, hempty]
    rfl
  have hbypass : (env.withTypes types suffix).bypass = false := rfl
  simp only [keywordField, hbypass, hnamed, Bool.false_eq_true, if_false]

/-- Without a keyword form the resolver gives no field. -/
theorem resolve_of_no_form (h : ¬ ∃ keyword, KeywordForm types suffix field keyword) :
    (env.withTypes types suffix).resolve field = none := by
  cases hresolve : (env.withTypes types suffix).resolve field with
  | none => rfl
  | some keyword => exact absurd ⟨keyword, resolve_byType_iff.1 hresolve⟩ h

/-- Operators other than `exact` use the field itself when the resolver gives none. -/
theorem keywordField_of_resolve {op : Operator} (h : env.resolve field = none)
    (hop : op ≠ .exact) : env.keywordField op field = .ok field := by
  simp [keywordField, h, hop]

theorem keywordField_bypassing (resolver : Option KeywordResolver) (op : Operator)
    (field : String) : (env.bypassing resolver).keywordField op field = .ok field := rfl

end Environment

namespace Condition

variable {env : Environment} {scope : Option String} {field target : String}

/-- However a comparison is written, with its type or as a mapping that is read as it, the document
or the failure of its compile fulfils `P`. -/
def Compares (env : Environment) (scope : Option String) (field : String) (op : Operator)
    (operand : Value) (P : Except Error Value → Prop) : Prop :=
  ∀ v, (Condition.parse v).result = .ok (.compare field op operand) →
    P (Compile.document (Condition.compile env scope v)).result

/-- `exact` becomes a term on `target`. -/
def ExactOn (env : Environment) (scope : Option String) (field target : String) : Prop :=
  ∀ operand, Compares env scope field .exact operand (· = .ok (Leaf.term target operand).toValue)

/-- On every sequence of members, `in` becomes their terms on `target`, and `nin` denies these. -/
def MembersOn (env : Environment) (scope : Option String) (field target : String) : Prop :=
  ∀ operand vs, operand.members? = some vs →
    Compares env scope field .oneOf operand (· = .ok (Leaf.terms target vs).toValue) ∧
      Compares env scope field .noneOf operand (· = .ok (Leaf.terms target vs).toValue.denied)

/-- A failure that reports that a field has no keyword form. -/
def MissesKeyword (field : String) (r : Except Error Value) : Prop :=
  ∃ e report, r = .error e ∧ e.report? = some report ∧ report.kind = .missingKeywordField ∧
    Entries.find? "field" report.details = some (.str field)

/-- The result of a comparison is that of its field in the scope. -/
theorem compares_of {op : Operator} {operand : Value} {P : Except Error Value → Prop}
    (h : P ((Compile.comparison env (Field.qualify field scope) op operand).map Query.toValue)) :
    Compares env scope field op operand P := by
  intro v hv
  have hcompile : (Condition.compile env scope v).result =
      Compile.comparison env (Field.qualify field scope) op operand := by
    rw [Condition.compile, Outcome.bind_ok (x := Compile.ofParsed (Condition.parse v)) hv]
    rfl
  have hdocument : (Compile.document (Condition.compile env scope v)).result =
      (Condition.compile env scope v).result.map Query.toValue :=
    Outcome.result_bind_pure _ _
  rw [hdocument, hcompile]
  exact h

theorem exactOn_of (h : env.keywordField .exact (Field.qualify field scope) = .ok target) :
    ExactOn env scope field target := by
  intro operand
  apply compares_of
  simp only [Compile.comparison, h, Except.map]
  rfl

theorem membersOn_of
    (h : ∀ op, op ≠ .exact → env.keywordField op (Field.qualify field scope) = .ok target) :
    MembersOn env scope field target := by
  intro operand vs hvs
  have hterms : ∀ op, op ≠ .exact →
      Compile.terms env (Field.qualify field scope) op operand = .ok (.terms target vs) := by
    intro op hop
    unfold Value.members? at hvs
    split at hvs
    case h_5 => cases hvs
    all_goals
      cases hvs
      simp only [Compile.terms, h op hop, Except.map]
  constructor
  · apply compares_of
    simp only [Compile.comparison, hterms .oneOf (by decide), Except.map]
    rfl
  · apply compares_of
    simp only [Compile.comparison, hterms .noneOf (by decide), Except.map]
    rfl

/-- Without a keyword form `exact` fails, and the failure names the field in its scope. -/
theorem missesKeyword {types : FieldTypes} {suffix : String}
    (h : ¬ ∃ keyword, KeywordForm types suffix (Field.qualify field scope) keyword)
    (operand : Value) :
    Compares (env.withTypes types suffix) scope field .exact operand
      (MissesKeyword (Field.qualify field scope)) := by
  apply compares_of
  have hresolve := env.resolve_of_no_form h
  have hfails : (env.withTypes types suffix).keywordField .exact (Field.qualify field scope) =
      .error (.missingKeywordField (Field.qualify field scope) .exact) := by
    simp [Environment.keywordField, hresolve]
    rfl
  refine ⟨.missingKeywordField (Field.qualify field scope) .exact, _, ?_, rfl, rfl, rfl⟩
  simp only [Compile.comparison, hfails, Except.map]

/-- **Exact comparisons agree on their field.** With a resolver by types, `exact`, `in` and `nin`
use the keyword form of the field in its scope. When there is none, `exact` fails and names the
field, and the other two use the field itself. So wherever `exact` compiles, all three use the same
field, and it has the keyword type. All of them use the field itself when forms are bypassed, and
`in` and `nin` also without a resolver. -/
theorem exact_comparisons_agree (env : Environment) (types : FieldTypes) (suffix : String)
    (scope : Option String) {field : String} (hfield : field ≠ "") :
    let typed := env.withTypes types suffix
    let path := Field.qualify field scope
    (∀ keyword, KeywordForm types suffix path keyword →
      ExactOn typed scope field keyword ∧ MembersOn typed scope field keyword) ∧
    ((¬ ∃ keyword, KeywordForm types suffix path keyword) →
      (∀ operand, Compares typed scope field .exact operand (MissesKeyword path)) ∧
        MembersOn typed scope field path) ∧
    (∀ operand, Compares typed scope field .exact operand fun r => ∀ document, r = .ok document →
      ∃ keyword, KeywordForm types suffix path keyword ∧ HasKeywordType types keyword ∧
        document = (Leaf.term keyword operand).toValue ∧ MembersOn typed scope field keyword) ∧
    (∀ resolver, ExactOn (env.bypassing resolver) scope field path ∧
      MembersOn (env.bypassing resolver) scope field path) ∧
    ∀ bypass, MembersOn (env.unresolved bypass) scope field path := by
  intro typed path
  have hpath : path ≠ "" := Field.qualify_ne_empty hfield scope
  have hform : ∀ keyword, KeywordForm types suffix path keyword →
      ExactOn typed scope field keyword ∧ MembersOn typed scope field keyword := by
    intro keyword h
    have hkeyword := env.keywordField_of_form h hpath
    exact ⟨exactOn_of (hkeyword .exact), membersOn_of fun op _ => hkeyword op⟩
  refine ⟨hform, ?_, ?_, ?_, ?_⟩
  · intro h
    have hresolve := env.resolve_of_no_form h
    refine ⟨missesKeyword h, membersOn_of fun op hop => ?_⟩
    exact typed.keywordField_of_resolve hresolve hop
  · intro operand v hv document hdocument
    by_cases h : ∃ keyword, KeywordForm types suffix path keyword
    · obtain ⟨keyword, hkeyword⟩ := h
      obtain ⟨hexact, hmembers⟩ := hform keyword hkeyword
      have heq : document = (Leaf.term keyword operand).toValue := by
        rw [hexact operand v hv] at hdocument
        exact (Except.ok.inj hdocument).symm
      exact ⟨keyword, hkeyword, hkeyword.hasKeywordType, heq, hmembers⟩
    · have hmisses : MissesKeyword path (Compile.document (compile typed scope v)).result :=
        missesKeyword h operand v hv
      obtain ⟨e, _, hfails, _⟩ := hmisses
      rw [hfails] at hdocument
      cases hdocument
  · intro resolver
    have hbypass : ∀ op, (env.bypassing resolver).keywordField op path = .ok path :=
      fun op => env.keywordField_bypassing resolver op path
    exact ⟨exactOn_of (hbypass .exact), membersOn_of fun op _ => hbypass op⟩
  · intro bypass
    apply membersOn_of
    intro op hop
    exact (env.unresolved bypass).keywordField_of_resolve rfl hop

/-- Under a parent path, for a text field with a keyword form, one that ends in the suffix itself
and is a keyword, and one without a keyword form. -/
theorem exact_comparisons_agree_posts :
    let types : FieldTypes := [("posts.title", .str "text"),
      ("posts.title.keyword", .str "keyword"), ("posts.title.keyword.keyword", .str "keyword"),
      ("posts.body", .str "text")]
    let typed := Environment.withTypes {} types "keyword"
    let exactly (field : String) : Value :=
      .object [(field, .object [("exact", .str "dune")])]
    "title" ≠ "" ∧ "title.keyword" ≠ "" ∧ "body" ≠ "" ∧
    (Compile.document (Condition.compile typed (some "posts") (exactly "title"))).result =
      .ok (Leaf.term "posts.title.keyword" (.str "dune")).toValue ∧
    (Compile.document (Condition.compile typed (some "posts") (exactly "title.keyword"))).result =
      .ok (Leaf.term "posts.title.keyword" (.str "dune")).toValue ∧
    MissesKeyword "posts.body"
      (Compile.document (Condition.compile typed (some "posts") (exactly "body"))).result := by
  intro types typed exactly
  have htitle : KeywordForm types "keyword" (Field.qualify "title" (some "posts"))
      "posts.title.keyword" :=
    .below (by decide) rfl
  have hkeyword : KeywordForm types "keyword" (Field.qualify "title.keyword" (some "posts"))
      "posts.title.keyword" :=
    .itself rfl
  have hbody : ¬ ∃ keyword,
      KeywordForm types "keyword" (Field.qualify "body" (some "posts")) keyword := by
    rintro ⟨keyword, h⟩
    cases h with
    | itself h => exact absurd h (by decide)
    | below _ h => exact absurd h (by decide)
  refine ⟨by decide, by decide, by decide, ?_, ?_, ?_⟩
  · exact ((exact_comparisons_agree {} types "keyword" (some "posts") (by decide)).1 _ htitle).1
      (.str "dune") (exactly "title") rfl
  · exact ((exact_comparisons_agree {} types "keyword" (some "posts") (by decide)).1 _ hkeyword).1
      (.str "dune") (exactly "title.keyword") rfl
  · exact ((exact_comparisons_agree {} types "keyword" (some "posts") (by decide)).2.1 hbody).1
      (.str "dune") (exactly "body") rfl

end Condition

end SearchRequest
