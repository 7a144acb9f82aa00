import SearchRequest.Validation.Scalar
import SearchRequest.Error.Basic
import SearchRequest.Value.Outline
/-
The operands of conditions that hold a sub-tree or search several fields. Only the parts that are
known are read; other keys do not matter.
-/
namespace SearchRequest

open Validated (valid required optional)

/-- The operand of a group. -/
structure GroupPayload where
  wheres : Value

/-- The operand of a nested condition. -/
structure NestedPayload where
  wheres : Value
  scoreMode : String

/-- The operand of a nested condition that returns the matching children. -/
structure InnerNestedPayload where
  wheres : Value
  options : Value
  scoreMode : String
  ignoreUnmapped : Bool

/-- The operand of a search in several fields. -/
structure MultiMatchPayload where
  query : Value
  type : String
  fields : List String
  options : Option Entries

/-- The word under which a payload holds its sub-tree. -/
def wheresKey : String := "wheres"

/-- The reserved field of searches in several fields. -/
def multiMatchField : String := "multi_match"

namespace Payload

/-- The operand of a group. -/
def group (es : Entries) : Validated GroupPayload :=
  GroupPayload.mk <$> required es wheresKey Validate.any

/-- The operand of a nested condition. -/
def nested (es : Entries) : Validated NestedPayload :=
  NestedPayload.mk <$> required es wheresKey Validate.any <*>
    required es "score_mode" Validate.string

/-- The operand of a nested condition that returns the matching children. -/
def innerNested (es : Entries) : Validated InnerNestedPayload :=
  InnerNestedPayload.mk <$> optional es wheresKey .null Validate.any <*>
    optional es "options" .null Validate.any <*> required es "score_mode" Validate.string <*>
    optional es "ignore_unmapped" false Validate.boolean

/-- The operand of a search in several fields. -/
def multiMatch (es : Entries) : Validated MultiMatchPayload :=
  MultiMatchPayload.mk <$> required es "query" Validate.any <*>
    required es "type" Validate.string <*> required es "fields" Validate.strings <*>
    optional es "options" none (Validate.nullable Validate.mapping)

/-- A payload read from the entries of a mapping, or the failure that is reported for it. -/
def readEntries {α : Type} (field operator : String) (check : Entries → Validated α)
    (es : Entries) : Except Error α :=
  match check es with
  | .valid a => .ok a
  | .invalid first _ => .error (.malformedPayload field operator first)

/-- A payload read from a value. -/
def read {α : Type} (field operator : String) (check : Entries → Validated α) :
    Value → Except Error α
  | .object es => readEntries field operator check es
  | v => .error (.payloadNotMapping field operator v)

end Payload

/-- The outline of the operand of a group. -/
def GroupPayload.outline (p : GroupPayload) : Outline :=
  .plainRecord "GroupPayload" [(wheresKey, p.wheres.outline)]

/-- The outline of the operand of a nested condition. -/
def NestedPayload.outline (p : NestedPayload) : Outline :=
  .plainRecord "NestedPayload" [(wheresKey, p.wheres.outline), ("score_mode", .str p.scoreMode)]

/-- The outline of the operand of a nested condition that returns the matching children. -/
def InnerNestedPayload.outline (p : InnerNestedPayload) : Outline :=
  .plainRecord "InnerNestedPayload"
    [(wheresKey, p.wheres.outline), ("options", p.options.outline),
      ("score_mode", .str p.scoreMode), ("ignore_unmapped", .bool p.ignoreUnmapped)]

/-- The outline of the operand of a search in several fields. -/
def MultiMatchPayload.outline (p : MultiMatchPayload) : Outline :=
  .plainRecord "MultiMatchPayload"
    [("query", p.query.outline), ("type", .str p.type), ("fields", .ofStrings p.fields),
      ("options", .ofOption (p.options.map fun es => (Value.object es).outline))]

namespace Payload

/-- The outline of the payload with the given type name, read from a value. -/
def outline? (typeName field operator : String) (v : Value) : Option (Except Error Outline) :=
  match typeName with
  | "GroupPayload" => some ((read field operator group v).map GroupPayload.outline)
  | "NestedPayload" => some ((read field operator nested v).map NestedPayload.outline)
  | "InnerNestedPayload" =>
    some ((read field operator innerNested v).map InnerNestedPayload.outline)
  | "MultiMatchPayload" => some ((read field operator multiMatch v).map MultiMatchPayload.outline)
  | _ => none

end Payload

end SearchRequest
