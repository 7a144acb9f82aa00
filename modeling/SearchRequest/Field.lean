/-
Paths of fields. Inside a nested scope a field is named by its full path from the root document.
-/
namespace SearchRequest.Field

/-- Whether a path lies under another one, or is its own path followed by a dot. -/
def isUnder (path field : String) : Bool :=
  (path ++ ".").toList.isPrefixOf field.toList

/-- A field in a scope: its path from the root, unless it is already written so. An empty scope is
the root. -/
def qualify (field : String) (scope : Option String) : String :=
  match scope with
  | none => field
  | some path =>
    if path.isEmpty then field
    else if isUnder path field then field
    else path ++ "." ++ field

/-- The part of a path before its first dot. -/
def firstSegment (field : String) : String :=
  String.ofList (field.toList.takeWhile (· ≠ '.'))

@[simp] theorem qualify_none (field : String) : qualify field none = field := rfl

theorem isUnder_append (path rest : String) : isUnder path (path ++ "." ++ rest) := by
  simp [isUnder]

/-- Qualifying twice is qualifying once. -/
theorem qualify_qualify (field : String) (scope : Option String) :
    qualify (qualify field scope) scope = qualify field scope := by
  cases scope with
  | none => rfl
  | some path =>
    by_cases he : path.isEmpty
    · simp [qualify, he]
    · by_cases hu : isUnder path field
      · simp [qualify, he, hu]
      · simp [qualify, he, hu, isUnder_append]

end SearchRequest.Field
