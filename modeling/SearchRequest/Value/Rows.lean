import SearchRequest.Entries
import SearchRequest.Value.Outline
import SearchRequest.Decimal.Binary
/-
Comparing values, and mappings whose keys may be any values. Numbers are equal when they are the
same number, whatever their kind, so that `True`, `1` and `1.0` are one key. Lists, sets and
mappings change, so they can be no keys.
-/
namespace SearchRequest

namespace Outline

/-- The whole number that an outline equals, if it equals one. -/
def whole? : Outline → Option Int
  | bool b => some (if b then 1 else 0)
  | int i => some i
  | float x => Decimal.whole? x
  | _ => none

/-- Whether an outline is a number. -/
def isNumber : Outline → Bool
  | bool _ | int _ | float _ => true
  | _ => false

/-- Whether two numbers are equal. -/
def sameNumber (a b : Outline) : Bool :=
  match a.whole?, b.whole? with
  | some i, some j => i == j
  | none, none =>
    match a, b with
    | float x, float y => x == y
    | _, _ => false
  | _, _ => false

/-- The text that an outline is, if it is one. -/
def text? : Outline → Option String
  | str s => some s
  | operator op => some op.word
  | _ => none

/-- Whether two sequences can be equal at all: sets of both kinds compare with each other. -/
def Brackets.comparable : Brackets → Brackets → Bool
  | .set, .frozenset | .frozenset, .set => true
  | a, b => a == b

/-- Whether the order of the items does not matter. -/
def Brackets.unordered : Brackets → Bool
  | .set | .frozenset => true
  | _ => false

mutual

/-- Whether two outlines are equal. -/
def same : Outline → Outline → Bool
  | null, b => b.isNull
  | bool x, b => b.isNumber && sameNumber (bool x) b
  | int i, b => b.isNumber && sameNumber (int i) b
  | float x, b => b.isNumber && sameNumber (float x) b
  | str s, b => b.text? == some s
  | operator op, b => b.text? == some op.word
  | bytes x, bytes y => x == y
  | seq k xs, seq k' ys =>
    Brackets.comparable k k' && xs.length == ys.length &&
      (if Brackets.unordered k then eachIn xs ys else sameItems xs ys)
  | mapping rs, mapping rs' => rs.length == rs'.length && eachRowIn rs rs'
  | record n fs, record n' fs' => n == n' && sameFields fs fs'
  | _, _ => false

/-- Whether two sequences hold equal items in the same order. -/
def sameItems : List Outline → List Outline → Bool
  | [], [] => true
  | x :: xs, y :: ys => same x y && sameItems xs ys
  | _, _ => false

/-- Whether every item of the first sequence is in the second. -/
def eachIn : List Outline → List Outline → Bool
  | [], _ => true
  | x :: xs, ys => ys.any (same x) && eachIn xs ys

/-- Whether every row of the first mapping is in the second. -/
def eachRowIn : List (Outline × Outline) → List (Outline × Outline) → Bool
  | [], _ => true
  | (k, v) :: rs, rs' => rs'.any (fun r => same k r.1 && same v r.2) && eachRowIn rs rs'

/-- Whether two records hold equal fields. -/
def sameFields : List (Label × Outline) → List (Label × Outline) → Bool
  | [], [] => true
  | (l, a) :: fs, (l', b) :: fs' => l.name == l'.name && same a b && sameFields fs fs'
  | _, _ => false

end

mutual

/-- Whether an outline can be a key. -/
def isKey : Outline → Bool
  | seq .list _ | seq .set _ | mapping _ => false
  | seq _ items => areKeys items
  | record _ fields => fieldsAreKeys fields
  | _ => true

/-- Whether all items can be keys. -/
def areKeys : List Outline → Bool
  | [] => true
  | o :: os => o.isKey && areKeys os

/-- Whether all fields of a record can be keys. -/
def fieldsAreKeys : List (Label × Outline) → Bool
  | [] => true
  | (_, o) :: fields => o.isKey && fieldsAreKeys fields

end

end Outline

namespace Value

/-- Whether two values are equal. -/
def same (a b : Value) : Bool :=
  a.outline.same b.outline

/-- Whether a value can be a key of a mapping. -/
def isKey (v : Value) : Bool :=
  v.outline.isKey

/-- The text that a value is, if it is one. -/
def text? : Value → Option String
  | str s => some s
  | _ => none

@[simp] theorem text?_str (s : String) : (str s).text? = some s :=
  rfl

@[simp] theorem same_str (s t : String) : (str s).same (str t) = (t == s) := by
  simp [same, outline, Outline.same, Outline.text?]

end Value

/-- A mapping whose keys may be any values, in the order of insertion. -/
abbrev Rows := List (Value × Value)

namespace Rows

/-- The rows with `k` set to `v`. The key that was there first stays. -/
def insert (k v : Value) : Rows → Rows
  | [] => [(k, v)]
  | (k', v') :: rows => if k'.same k then (k', v) :: rows else (k', v') :: insert k v rows

/-- The rows of entries. -/
def ofEntries (es : Entries) : Rows :=
  es.map fun (k, v) => (.str k, v)

/-- The entries that the rows are, when every key is a text. -/
def entries? : Rows → Option Entries
  | [] => some []
  | (k, v) :: rows =>
    match k.text?, entries? rows with
    | some k, some es => some ((k, v) :: es)
    | _, _ => none

/-- The mapping that the rows are. -/
def toValue (rows : Rows) : Value :=
  match entries? rows with
  | some es => .object es
  | none => .table rows

/-- The value under a key that is a text, when it is present. -/
def under? (key : String) : Rows → Option Value
  | [] => none
  | (k, v) :: rows => if k.text? = some key then some v else under? key rows

/-- The value under any key, when it is present. -/
def lookup? (key : Value) : Rows → Option Value
  | [] => none
  | (k, v) :: rows => if k.same key then some v else lookup? key rows

/-- The size of the values, and one for each row. -/
noncomputable def weight : Rows → Nat
  | [] => 0
  | (_, v) :: rows => sizeOf v + 1 + weight rows

theorem entries?_ofEntries (es : Entries) : entries? (ofEntries es) = some es := by
  induction es with
  | nil => rfl
  | cons e es ih =>
    obtain ⟨k, v⟩ := e
    simp only [ofEntries, List.map_cons, entries?, Value.text?]
    rw [ofEntries] at ih
    rw [ih]

@[simp] theorem toValue_ofEntries (es : Entries) : toValue (ofEntries es) = .object es := by
  rw [toValue, entries?_ofEntries]

theorem mem_of_under? {key : String} {v : Value} {rows : Rows} (h : under? key rows = some v) :
    ∃ k, (k, v) ∈ rows := by
  induction rows with
  | nil => cases h
  | cons r rows ih =>
    obtain ⟨k, w⟩ := r
    rw [under?] at h
    split at h
    · cases h
      exact ⟨k, List.mem_cons_self⟩
    · obtain ⟨k', hk'⟩ := ih h
      exact ⟨k', List.mem_cons_of_mem _ hk'⟩

theorem mem_of_lookup? {key v : Value} {rows : Rows} (h : lookup? key rows = some v) :
    ∃ k, (k, v) ∈ rows ∧ k.same key = true := by
  induction rows with
  | nil => cases h
  | cons r rows ih =>
    obtain ⟨k, w⟩ := r
    rw [lookup?] at h
    split at h
    · rename_i hk
      cases h
      exact ⟨k, List.mem_cons_self, hk⟩
    · obtain ⟨k', hk', hsame⟩ := ih h
      exact ⟨k', List.mem_cons_of_mem _ hk', hsame⟩

/-- A value is smaller than the rows that it stands in. -/
theorem sizeOf_lt_weight {k v : Value} {rows : Rows} (h : (k, v) ∈ rows) :
    sizeOf v < weight rows := by
  induction rows with
  | nil => cases h
  | cons r rows ih =>
    obtain ⟨k', v'⟩ := r
    rw [weight]
    rcases List.mem_cons.1 h with heq | h
    · cases heq
      omega
    · have := ih h
      omega

theorem sizeOf_lt_of_under? {key : String} {v : Value} {rows : Rows} (h : under? key rows = some v) :
    sizeOf v < weight rows := by
  obtain ⟨k, hk⟩ := mem_of_under? h
  exact sizeOf_lt_weight hk

theorem weight_lt_cons (r : Value × Value) (rows : Rows) : weight rows < weight (r :: rows) := by
  obtain ⟨k, v⟩ := r
  rw [weight]
  omega

theorem weight_ofEntries_le (es : Entries) : weight (ofEntries es) ≤ sizeOf es := by
  induction es with
  | nil => exact Nat.zero_le _
  | cons e es ih =>
    obtain ⟨k, v⟩ := e
    have hweight : weight (ofEntries ((k, v) :: es)) = sizeOf v + 1 + weight (ofEntries es) := rfl
    simp only [List.cons.sizeOf_spec, Prod.mk.sizeOf_spec]
    omega

theorem weight_le (rows : Rows) : weight rows ≤ sizeOf rows := by
  induction rows with
  | nil => exact Nat.zero_le _
  | cons r rows ih =>
    obtain ⟨k, v⟩ := r
    simp only [weight, List.cons.sizeOf_spec, Prod.mk.sizeOf_spec]
    omega

end Rows

namespace Value

/-- The rows of a mapping; what is none has no rows. -/
def mapping? : Value → Option Rows
  | object es => some (Rows.ofEntries es)
  | table rows => some rows
  | _ => none

/-- The value under a key that is a text, when the value is a mapping that has it. -/
def under? (v : Value) (key : String) : Option Value :=
  match v with
  | object es => Entries.find? key es
  | table rows => Rows.under? key rows
  | _ => none

/-- A mapping with a key that is a text set to `x`; what is no mapping has no place for it. -/
def put (v : Value) (key : String) (x : Value) : Value :=
  match v with
  | object es => object (Entries.insert key x es)
  | table rows => table (Rows.insert (.str key) x rows)
  | v => v

/-- The rows of a mapping are smaller than the mapping. -/
theorem weight_lt_sizeOf {v : Value} {rows : Rows} (h : v.mapping? = some rows) :
    rows.weight < sizeOf v := by
  unfold mapping? at h
  split at h
  · rename_i es
    cases h
    have := Rows.weight_ofEntries_le es
    rw [object.sizeOf_spec]
    omega
  · rename_i rows'
    cases h
    have := Rows.weight_le rows
    rw [table.sizeOf_spec]
    omega
  · cases h

/-- The rows of a mapping are smaller than those that it stands in. -/
theorem weight_lt_cons {v : Value} {rows : Rows} (h : v.mapping? = some rows) (k : Value)
    (rest : Rows) : rows.weight < Rows.weight ((k, v) :: rest) :=
  Nat.lt_trans (weight_lt_sizeOf h) (Rows.sizeOf_lt_weight List.mem_cons_self)

end Value

end SearchRequest
