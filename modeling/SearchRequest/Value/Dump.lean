import SearchRequest.Value.Rows
/-
Values as plain data. Every record at any depth becomes a mapping from the keys of its fields,
without the fields that are null; what is plain already stays as it is. A record in a set has no
such form, since a mapping can be no member of a set.
-/
namespace SearchRequest

/-- A sequence of a kind. -/
def Brackets.toValue : Brackets → List Value → Value
  | .list => .list
  | .tuple => .tuple
  | .set => .set
  | .frozenset => .frozenset

namespace Outline

mutual

/-- The plain data of an outline. -/
def dump : Outline → Value
  | null => .null
  | bool b => .bool b
  | int i => .int i
  | float x => .float x
  | str s => .str s
  | bytes b => .bytes b
  | operator op => .str op.word
  | seq brackets items => brackets.toValue (dumpItems items)
  | mapping rows => Rows.toValue (dumpRows rows)
  | record _ fields => .object (dumpFields fields)

/-- The plain data of the items of a sequence. -/
def dumpItems : List Outline → List Value
  | [] => []
  | o :: os => o.dump :: dumpItems os

/-- The plain data of the rows of a mapping; their nulls stay. -/
def dumpRows : List (Outline × Outline) → Rows
  | [] => []
  | (k, v) :: rows => (k.dump, v.dump) :: dumpRows rows

/-- The plain data of the fields of a record that are not null. -/
def dumpFields : List (Label × Outline) → Entries
  | [] => []
  | (l, o) :: fields => if o.isNull then dumpFields fields else (l.key, o.dump) :: dumpFields fields

end

mutual

/-- Whether an outline has a form as plain data. -/
def dumpable : Outline → Bool
  | seq brackets items =>
    (!Brackets.unordered brackets || (dumpItems items).all Value.isKey) && areDumpable items
  | mapping rows => rowsDumpable rows
  | record _ fields => fieldsDumpable fields
  | _ => true

/-- Whether all items have a form as plain data. -/
def areDumpable : List Outline → Bool
  | [] => true
  | o :: os => o.dumpable && areDumpable os

/-- Whether the values of all rows have a form as plain data; keys stay what they are. -/
def rowsDumpable : List (Outline × Outline) → Bool
  | [] => true
  | (_, v) :: rows => v.dumpable && rowsDumpable rows

/-- Whether all fields of a record have a form as plain data. -/
def fieldsDumpable : List (Label × Outline) → Bool
  | [] => true
  | (_, o) :: fields => o.dumpable && fieldsDumpable fields

end

/-- The fields of a record as a mapping; anything else has no fields. -/
def fieldsDump : Outline → Entries
  | record _ fields => dumpFields fields
  | _ => []

end Outline

/-- A value as plain data. -/
def Value.dump (v : Value) : Value :=
  v.outline.dump

/-- Whether a value has a form as plain data. -/
def Value.dumpable (v : Value) : Bool :=
  v.outline.dumpable

/-- Options as plain data: the mapping of those that are not null. -/
def Options.dump (o : Options Value) : Entries :=
  (optionsOutline o).fieldsDump

end SearchRequest
