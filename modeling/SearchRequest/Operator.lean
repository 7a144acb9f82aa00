/-
The words of the filter language: the operators that compare a field with an operand, the verbs
an operator mapping may start with, and the boolean clauses a group of conditions stands under.
-/
namespace SearchRequest

/-- The operators that compare one field with one operand. -/
inductive Operator
  | lt | lte | gt | gte
  | between | notBetween
  | search
  | like | notLike
  | regex
  | present | absent
  | differs
  | oneOf | noneOf
  | exact
  | phrase | phraseStart
  deriving DecidableEq, Repr

namespace Operator

/-- Every operator, in the order in which messages list them. -/
def all : List Operator :=
  [lt, lte, gt, gte, between, notBetween, search, like, notLike, regex, present, absent, differs,
    oneOf, noneOf, exact, phrase, phraseStart]

/-- The written word of an operator. -/
def word : Operator → String
  | lt => "lt"
  | lte => "lte"
  | gt => "gt"
  | gte => "gte"
  | between => "between"
  | notBetween => "not_between"
  | search => "search"
  | like => "like"
  | notLike => "not_like"
  | regex => "regex"
  | present => "exists"
  | absent => "not_exists"
  | differs => "ne"
  | oneOf => "in"
  | noneOf => "nin"
  | exact => "exact"
  | phrase => "phrase"
  | phraseStart => "phrase_prefix"

/-- The label of an operator where a value of the enumeration is displayed. -/
def label (op : Operator) : String :=
  op.word.map Char.toUpper

theorem mem_all (op : Operator) : op ∈ all := by
  cases op <;> decide

end Operator

/-- What the single key of an operator mapping asks for: a comparison, or one of the scopes that
hold a sub-tree. -/
inductive Verb
  | compare (op : Operator)
  | group
  | nested (negated : Bool)
  | innerNested
  deriving DecidableEq, Repr

namespace Verb

/-- Every verb, in the order in which messages list them. -/
def all : List Verb :=
  Operator.all.map compare ++ [group, nested false, nested true, innerNested]

/-- The written word of a verb. -/
def word : Verb → String
  | compare op => op.word
  | group => "group"
  | nested false => "nested"
  | nested true => "not_nested"
  | innerNested => "innerNested"

/-- The verb that a word stands for; words are matched exactly. -/
def ofWord? (w : String) : Option Verb :=
  all.find? (·.word == w)

theorem mem_all (v : Verb) : v ∈ all := by
  match v with
  | compare op => cases op <;> decide
  | group | nested false | nested true | innerNested => decide

theorem ofWord?_word (v : Verb) : ofWord? v.word = some v := by
  match v with
  | compare op => cases op <;> decide
  | group | nested false | nested true | innerNested => decide

theorem word_of_ofWord? {w : String} {v : Verb} (h : ofWord? w = some v) : v.word = w := by
  simpa using List.find?_some h

theorem word_injective {v w : Verb} (h : v.word = w.word) : v = w :=
  Option.some.inj (by rw [← ofWord?_word, ← ofWord?_word, h])

end Verb

/-- The clauses of a boolean query. -/
inductive Clause
  | must | should | mustNot | filter
  deriving DecidableEq, Repr

namespace Clause

/-- Every clause, in the alphabetical order in which messages list them. -/
def all : List Clause :=
  [filter, must, mustNot, should]

/-- The written word of a clause. -/
def word : Clause → String
  | must => "must"
  | should => "should"
  | mustNot => "must_not"
  | filter => "filter"

/-- The clause that a word stands for. -/
def ofWord? (w : String) : Option Clause :=
  all.find? (·.word == w)

theorem ofWord?_word (c : Clause) : ofWord? c.word = some c := by
  cases c <;> decide

theorem word_of_ofWord? {w : String} {c : Clause} (h : ofWord? w = some c) : c.word = w := by
  simpa using List.find?_some h

end Clause

end SearchRequest
