import SearchRequest.Value.Outline
import SearchRequest.Decimal.Shortest
import SearchRequest.Text.Quoted
/-
Values as messages show them. Texts stand in quotes, a tuple of one item keeps its comma, an empty
set is told apart from an empty mapping, and a record shows its fields in parentheses.
-/
namespace SearchRequest

namespace Outline

/-- Texts joined by a separator. -/
def joined (separator : String) : List String → String
  | [] => ""
  | [s] => s
  | s :: ss => s ++ separator ++ joined separator ss

/-- A sequence of items between the signs of its kind. -/
def bracketed : Brackets → List String → String
  | .list, ss => "[" ++ joined ", " ss ++ "]"
  | .tuple, [s] => "(" ++ s ++ ",)"
  | .tuple, ss => "(" ++ joined ", " ss ++ ")"
  | .set, [] => "set()"
  | .set, ss => "\x7b" ++ joined ", " ss ++ "\x7d"
  | .frozenset, [] => "frozenset()"
  | .frozenset, ss => "frozenset(\x7b" ++ joined ", " ss ++ "\x7d)"

mutual

/-- An outline as messages show it. -/
def display : Outline → String
  | null => "None"
  | bool b => if b then "True" else "False"
  | int i => toString i
  | float x => Decimal.text x
  | str s => Text.quote s
  | bytes b => Text.quoteBytes b
  | operator op => "<Operator." ++ op.label ++ ": " ++ Text.quote op.word ++ ">"
  | seq brackets items => bracketed brackets (displayItems items)
  | mapping rows => "\x7b" ++ joined ", " (displayRows rows) ++ "\x7d"
  | record name fields => name ++ "(" ++ joined ", " (displayFields fields) ++ ")"

/-- The items of a sequence as messages show them. -/
def displayItems : List Outline → List String
  | [] => []
  | o :: os => o.display :: displayItems os

/-- The rows of a mapping as messages show them. -/
def displayRows : List (Outline × Outline) → List String
  | [] => []
  | (k, v) :: rows => (k.display ++ ": " ++ v.display) :: displayRows rows

/-- The fields of a record as messages show them. -/
def displayFields : List (Label × Outline) → List String
  | [] => []
  | (l, o) :: fields => (l.name ++ "=" ++ o.display) :: displayFields fields

end

end Outline

/-- A value as messages show it. -/
def Value.display (v : Value) : String :=
  v.outline.display

/-- A value as a text of its own: a text is itself, a record shows its fields without its name,
and every other value is shown as in messages. -/
def Value.asText (v : Value) : String :=
  match v with
  | .str s => s
  | v =>
    match v.outline with
    | .record _ fields => Outline.joined " " (Outline.displayFields fields)
    | o => o.display

end SearchRequest
