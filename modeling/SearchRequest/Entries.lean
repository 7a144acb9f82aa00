/-
Mappings with text keys as lists of entries in the order of insertion. Writing to a key that is
present keeps its place; a new key goes to the end.
-/
namespace SearchRequest.Entries

variable {V : Type}

/-- The value of a key, when the key is present. -/
def find? (k : String) : List (String × V) → Option V
  | [] => none
  | (k', v) :: es => if k' = k then some v else find? k es

/-- The entries with `k` set to `v`. -/
def insert (k : String) (v : V) : List (String × V) → List (String × V)
  | [] => [(k, v)]
  | (k', v') :: es => if k' = k then (k', v) :: es else (k', v') :: insert k v es

/-- The entries without the key `k`. -/
def erase (k : String) (es : List (String × V)) : List (String × V) :=
  es.filter (·.1 ≠ k)

/-- The entries of `base` overwritten and extended by those of `top`, in order. -/
def overlay (base top : List (String × V)) : List (String × V) :=
  top.foldl (fun es e => insert e.1 e.2 es) base

/-- The keys, in order. -/
def keys (es : List (String × V)) : List String :=
  es.map (·.1)

/-- Whether a key is present. -/
def contains (k : String) (es : List (String × V)) : Bool :=
  (find? k es).isSome

/-- The entry for a key when there is a value to hold. -/
def ofOption (k : String) : Option V → List (String × V)
  | none => []
  | some v => [(k, v)]

@[simp] theorem find?_insert_self (k : String) (v : V) (es : List (String × V)) :
    find? k (insert k v es) = some v := by
  induction es with
  | nil => simp [insert, find?]
  | cons e es ih =>
    obtain ⟨k', v'⟩ := e
    by_cases h : k' = k <;> simp [insert, find?, h, ih]

theorem find?_insert_other {k k' : String} (h : k' ≠ k) (v : V) (es : List (String × V)) :
    find? k' (insert k v es) = find? k' es := by
  induction es with
  | nil => simp [insert, find?, Ne.symm h]
  | cons e es ih =>
    obtain ⟨k₁, v₁⟩ := e
    by_cases h₁ : k₁ = k
    · subst h₁
      simp [insert, find?, Ne.symm h]
    · by_cases h₂ : k₁ = k'
      · subst h₂
        simp [insert, find?, h]
      · simp [insert, find?, h₁, h₂, ih]

@[simp] theorem overlay_nil (base : List (String × V)) : overlay base [] = base := rfl

@[simp] theorem overlay_cons (base : List (String × V)) (e : String × V)
    (top : List (String × V)) : overlay base (e :: top) = overlay (insert e.1 e.2 base) top := rfl

/-- Overlaying two lists one after the other is overlaying them joined. -/
theorem overlay_append (base top more : List (String × V)) :
    overlay base (top ++ more) = overlay (overlay base top) more := by
  simp [overlay, List.foldl_append]

end SearchRequest.Entries
