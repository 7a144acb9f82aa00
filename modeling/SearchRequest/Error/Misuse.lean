/-
Values used in a way that their kind does not allow. Most of the language checks what it is given
and reports; the few places that take any value fail with one of these.
-/
namespace SearchRequest

/-- Why a value could not be used. -/
inductive Misuse
  /-- The kind of value has no such operation. -/
  | kind
  /-- An item has not the length that is needed. -/
  | length
  /-- A part was asked for that the kind of value does not have. -/
  | part
  /-- A mapping has no entry under the key. -/
  | key
  /-- A sequence has no item at the position. -/
  | index
  /-- A number is out of the range that is needed. -/
  | range
  deriving DecidableEq, Repr

end SearchRequest
