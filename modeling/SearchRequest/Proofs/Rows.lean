import SearchRequest.Proofs.Entries
import SearchRequest.Value.Rows
/-
Looking up in mappings whose keys may be any values. The rows of entries are looked up as the entries
are, and setting a text key changes what stands under it and no other row (`Value.under?_put`,
`Value.without_put`).
-/
namespace SearchRequest

theorem Outline.text?_of_same_str {o : Outline} {s : String} (h : o.same (.str s) = true) :
    o.text? = some s := by
  cases o with
  | str t | operator op =>
    simp only [Outline.same, beq_iff_eq] at h
    exact h.symm
  | null | bool | int | float | bytes | seq | mapping | record =>
    simp [Outline.same, Outline.isNull, Outline.isNumber] at h

/-- Only texts have the outline of a text. -/
theorem Value.text?_outline (v : Value) : v.outline.text? = v.text? := by
  cases v with
  | condition c => cases c <;> rfl
  | tree t => cases t <;> rfl
  | geoFilters f => cases f; rfl
  | geoBox b => cases b; rfl
  | options o =>
    obtain ⟨_, _, _, _, _, _, _, _, _, _, _, write⟩ := o
    cases write <;> rfl
  | _ => rfl

theorem Value.same_str_iff {k : Value} {s : String} : k.same (.str s) = true ↔ k.text? = some s := by
  constructor
  · intro h
    rw [← Value.text?_outline]
    exact Outline.text?_of_same_str h
  · intro h
    cases k with
    | str t =>
      cases h
      simp
    | _ => cases h

theorem Value.eq_str_of_text? {v : Value} {s : String} (h : v.text? = some s) : v = .str s := by
  cases v <;> cases h
  rfl

namespace Rows

theorem under?_ofEntries (key : String) (es : Entries) :
    under? key (ofEntries es) = Entries.find? key es := by
  induction es with
  | nil => rfl
  | cons e es ih =>
    obtain ⟨k, v⟩ := e
    have hcons : ofEntries ((k, v) :: es) = (.str k, v) :: ofEntries es := rfl
    simp only [hcons, under?, Entries.find?, ih, Value.text?_str, Option.some.injEq]

/-- A text key is looked up as any key is. -/
theorem lookup?_str (key : String) (rows : Rows) : lookup? (.str key) rows = under? key rows := by
  induction rows with
  | nil => rfl
  | cons r rows ih => simp only [lookup?, under?, Value.same_str_iff, ih]

theorem ofEntries_of_entries? {rows : Rows} {es : Entries} (h : entries? rows = some es) :
    ofEntries es = rows := by
  induction rows generalizing es with
  | nil =>
    cases h
    rfl
  | cons r rows ih =>
    obtain ⟨k, v⟩ := r
    rw [entries?] at h
    split at h
    · rename_i key es' hkey hes
      cases h
      rw [← ih hes, Value.eq_str_of_text? hkey]
      rfl
    · cases h

/-- The rows apart from those of a key that is a text. -/
def without (key : String) (rows : Rows) : Rows :=
  rows.filter fun row => row.1.text? ≠ some key

section
variable (key : String) (v : Value) (rows : Rows)

theorem under?_insert_self : under? key (insert (.str key) v rows) = some v := by
  induction rows with
  | nil => simp [insert, under?]
  | cons r rows ih =>
    obtain ⟨k, w⟩ := r
    by_cases hk : k.text? = some key
    · rw [insert, if_pos (Value.same_str_iff.2 hk), under?, if_pos hk]
    · rw [insert, if_neg (mt Value.same_str_iff.1 hk), under?, if_neg hk, ih]

theorem insert_insert (w : Value) :
    insert (.str key) v (insert (.str key) w rows) = insert (.str key) v rows := by
  induction rows with
  | nil => simp [insert]
  | cons r rows ih =>
    obtain ⟨k, x⟩ := r
    by_cases hk : k.same (.str key) = true
    · simp only [insert, if_pos hk]
    · simp only [insert, if_neg hk, ih]

theorem without_insert : without key (insert (.str key) v rows) = without key rows := by
  induction rows with
  | nil => simp [insert, without]
  | cons r rows ih =>
    obtain ⟨k, w⟩ := r
    by_cases hk : k.text? = some key
    · simp [insert, Value.same_str_iff.2 hk, without, hk]
    · have hsame : ¬k.same (.str key) = true := mt Value.same_str_iff.1 hk
      rw [insert, if_neg hsame]
      unfold without at ih ⊢
      rw [List.filter_cons_of_pos (by simpa using hk), List.filter_cons_of_pos (by simpa using hk), ih]

end

theorem ofEntries_insert (key : String) (v : Value) (es : Entries) :
    ofEntries (Entries.insert key v es) = insert (.str key) v (ofEntries es) := by
  induction es with
  | nil => rfl
  | cons e es ih =>
    obtain ⟨k, w⟩ := e
    have hcons (k : String) (w : Value) (es : Entries) :
        ofEntries ((k, w) :: es) = (.str k, w) :: ofEntries es := rfl
    by_cases hk : k = key
    · simp [Entries.insert, insert, hcons, hk]
    · simp [Entries.insert, insert, hcons, hk, Ne.symm hk, ih]

theorem str_same_of_under?_none {key : String} {rows : Rows} (h : under? key rows = none) :
    ∀ r ∈ rows, (Value.str key).same r.1 = false := by
  induction rows with
  | nil => simp
  | cons r rows ih =>
    obtain ⟨k, v⟩ := r
    rw [under?] at h
    split at h
    · cases h
    · rename_i hk
      refine List.forall_mem_cons.2 ⟨?_, ih h⟩
      rw [Value.same, Value.outline, Outline.same, Value.text?_outline]
      simpa using hk

end Rows

namespace Value

theorem mapping?_toValue (rows : Rows) : (Rows.toValue rows).mapping? = some rows := by
  unfold Rows.toValue
  split
  · rename_i es hes
    exact congrArg some (Rows.ofEntries_of_entries? hes)
  · rfl

theorem under?_toValue (rows : Rows) (key : String) :
    (Rows.toValue rows).under? key = Rows.under? key rows := by
  unfold Rows.toValue
  split
  · rename_i es hes
    rw [← Rows.ofEntries_of_entries? hes]
    exact (Rows.under?_ofEntries key es).symm
  · rfl

/-- The rows of a mapping apart from those of a key that is a text. -/
def without (v : Value) (key : String) : Rows :=
  Rows.without key (v.mapping?.getD [])

section
variable {v : Value} (h : v.isMapping = true) (key : String) (x : Value)
include h

theorem mapping?_put : (v.put key x).mapping? = some (Rows.insert (.str key) x (v.mapping?.getD [])) := by
  cases v with
  | object es => exact congrArg some (Rows.ofEntries_insert key x es)
  | table rows => rfl
  | _ => cases h

theorem isMapping_put : (v.put key x).isMapping = true := by
  cases v <;> first | rfl | cases h

theorem under?_put : (v.put key x).under? key = some x := by
  cases v with
  | object es => exact Entries.find?_insert_self key x es
  | table rows => exact Rows.under?_insert_self key x rows
  | _ => cases h

theorem put_put (y : Value) : (v.put key x).put key y = v.put key y := by
  cases v with
  | object es => exact congrArg object (Entries.insert_insert key y x es)
  | table rows => exact congrArg table (Rows.insert_insert key y rows x)
  | _ => cases h

theorem without_put : (v.put key x).without key = v.without key := by
  rw [without, mapping?_put h]
  exact Rows.without_insert key x _

end

end Value

end SearchRequest
