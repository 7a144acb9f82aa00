import SearchRequest.Proofs.Entries
import SearchRequest.Value.Dump
/-
Plain data. Values without typed parts are their own plain data (`Value.dump_of_isPlain`), and in
the plain data of a record every field that is not null stands under its own key
(`Outline.find?_dumpFields`).
-/
namespace SearchRequest

/-! ## Values without typed parts -/

namespace Value

mutual

/-- Whether a value holds no typed part. Members of sets have to be ones that can be there, and a
mapping whose keys are all texts has to be given as one. -/
def isPlain : Value → Bool
  | null | bool _ | int _ | float _ | str _ | bytes _ => true
  | list xs | tuple xs => arePlain xs
  | set xs | frozenset xs => arePlain xs && xs.all isKey
  | object es => entriesPlain es
  | table rows => rowsPlain rows && (Rows.entries? rows).isNone
  | condition _ | tree _ | options _ | geoFilters _ | geoBox _ | geoPoint _ | randomScore _ => false

/-- Whether no item holds a typed part. -/
def arePlain : List Value → Bool
  | [] => true
  | v :: vs => v.isPlain && arePlain vs

/-- Whether no value of an entry holds a typed part. -/
def entriesPlain : List (String × Value) → Bool
  | [] => true
  | (_, v) :: es => v.isPlain && entriesPlain es

/-- Whether neither keys nor values of rows hold a typed part. -/
def rowsPlain : List (Value × Value) → Bool
  | [] => true
  | (k, v) :: rows => k.isPlain && v.isPlain && rowsPlain rows

end

theorem arePlain_iff {vs : List Value} : arePlain vs = true ↔ ∀ v ∈ vs, v.isPlain = true := by
  induction vs with
  | nil => simp [arePlain]
  | cons v vs ih => simp [arePlain, ih]

theorem entriesPlain_iff {es : Entries} :
    entriesPlain es = true ↔ ∀ v ∈ es.map (·.2), v.isPlain = true := by
  induction es with
  | nil => simp [entriesPlain]
  | cons e es ih => simp [entriesPlain, ih]

open Outline

mutual

/-- What is plain already stays as it is. -/
theorem dump_of_isPlain (v : Value) (h : v.isPlain = true) : v.outline.dump = v := by
  cases v with
  | null | bool | int | float | str | bytes => simp only [outline, Outline.dump]
  | list xs | tuple xs =>
    rw [isPlain] at h
    simp only [outline, Outline.dump, dumpItems_of_arePlain xs h, Brackets.toValue]
  | set xs | frozenset xs =>
    rw [isPlain, Bool.and_eq_true] at h
    simp only [outline, Outline.dump, dumpItems_of_arePlain xs h.1, Brackets.toValue]
  | object es =>
    rw [isPlain] at h
    simp only [outline, Outline.dump, dumpRows_of_entriesPlain es h, Rows.toValue_ofEntries]
  | table rows =>
    rw [isPlain, Bool.and_eq_true, Option.isNone_iff_eq_none] at h
    simp only [outline, Outline.dump, dumpRows_of_rowsPlain rows h.1, Rows.toValue, h.2]
  | _ => simp only [isPlain, Bool.false_eq_true] at h

theorem dumpItems_of_arePlain (xs : List Value) (h : arePlain xs = true) :
    dumpItems (itemsOutline xs) = xs := by
  match xs with
  | [] => rw [itemsOutline, dumpItems]
  | v :: vs =>
    rw [arePlain, Bool.and_eq_true] at h
    rw [itemsOutline, dumpItems, dump_of_isPlain v h.1, dumpItems_of_arePlain vs h.2]

theorem dumpRows_of_entriesPlain (es : Entries) (h : entriesPlain es = true) :
    dumpRows (entriesOutline es) = Rows.ofEntries es := by
  match es with
  | [] => rw [entriesOutline, dumpRows]; rfl
  | (k, v) :: es =>
    rw [entriesPlain, Bool.and_eq_true] at h
    rw [entriesOutline, dumpRows, Outline.dump, dump_of_isPlain v h.1, dumpRows_of_entriesPlain es h.2]
    rfl

theorem dumpRows_of_rowsPlain (rows : Rows) (h : rowsPlain rows = true) :
    dumpRows (rowsOutline rows) = rows := by
  match rows with
  | [] => rw [rowsOutline, dumpRows]
  | (k, v) :: rows =>
    rw [rowsPlain, Bool.and_eq_true, Bool.and_eq_true] at h
    rw [rowsOutline, dumpRows, dump_of_isPlain k h.1.1, dump_of_isPlain v h.1.2,
      dumpRows_of_rowsPlain rows h.2]

end

mutual

theorem dumpable_of_isPlain (v : Value) (h : v.isPlain = true) : v.outline.dumpable = true := by
  cases v with
  | null | bool | int | float | str | bytes => rfl
  | list xs | tuple xs =>
    rw [isPlain] at h
    simp [outline, Outline.dumpable, Brackets.unordered, areDumpable_of_arePlain xs h]
  | set xs | frozenset xs =>
    rw [isPlain, Bool.and_eq_true] at h
    simp only [outline, Outline.dumpable, dumpItems_of_arePlain xs h.1, h.2,
      areDumpable_of_arePlain xs h.1, Bool.or_true, Bool.and_self]
  | object es =>
    rw [isPlain] at h
    simp only [outline, Outline.dumpable, rowsDumpable_of_entriesPlain es h]
  | table rows =>
    rw [isPlain, Bool.and_eq_true] at h
    simp only [outline, Outline.dumpable, rowsDumpable_of_rowsPlain rows h.1]
  | _ => simp only [isPlain, Bool.false_eq_true] at h

theorem areDumpable_of_arePlain (xs : List Value) (h : arePlain xs = true) :
    areDumpable (itemsOutline xs) = true := by
  match xs with
  | [] => rw [itemsOutline, areDumpable]
  | v :: vs =>
    rw [arePlain, Bool.and_eq_true] at h
    rw [itemsOutline, areDumpable, dumpable_of_isPlain v h.1, areDumpable_of_arePlain vs h.2,
      Bool.and_self]

theorem rowsDumpable_of_entriesPlain (es : Entries) (h : entriesPlain es = true) :
    rowsDumpable (entriesOutline es) = true := by
  match es with
  | [] => rw [entriesOutline, rowsDumpable]
  | (k, v) :: es =>
    rw [entriesPlain, Bool.and_eq_true] at h
    rw [entriesOutline, rowsDumpable, dumpable_of_isPlain v h.1,
      rowsDumpable_of_entriesPlain es h.2, Bool.and_self]

theorem rowsDumpable_of_rowsPlain (rows : Rows) (h : rowsPlain rows = true) :
    rowsDumpable (rowsOutline rows) = true := by
  match rows with
  | [] => rw [rowsOutline, rowsDumpable]
  | (k, v) :: rows =>
    rw [rowsPlain, Bool.and_eq_true, Bool.and_eq_true] at h
    rw [rowsOutline, rowsDumpable, dumpable_of_isPlain v h.1.2,
      rowsDumpable_of_rowsPlain rows h.2, Bool.and_self]

end

end Value

/-! ## The fields of a record as plain data -/

namespace Outline

/-- Only null is dumped as null. -/
theorem dump_ne_null {o : Outline} (h : o.isNull = false) : o.dump ≠ .null := by
  cases o with
  | null => cases h
  | seq brackets items => cases brackets <;> simp [dump, Brackets.toValue]
  | mapping rows =>
    rw [dump, Rows.toValue]
    cases Rows.entries? (dumpRows rows) <;> simp
  | _ => simp [dump]

theorem dumpFields_cons (l : Label) (o : Outline) (fields : List (Label × Outline)) :
    dumpFields ((l, o) :: fields) =
      Entries.ofOption l.key (if o.isNull then none else some o.dump) ++ dumpFields fields := by
  rw [dumpFields]
  cases o.isNull <;> rfl

theorem dumpFields_append (fields more : List (Label × Outline)) :
    dumpFields (fields ++ more) = dumpFields fields ++ dumpFields more := by
  induction fields with
  | nil => rw [dumpFields]; rfl
  | cons f fields ih =>
    rw [List.cons_append, dumpFields_cons, dumpFields_cons, ih, List.append_assoc]

theorem keys_dumpFields_subset (fields : List (Label × Outline)) :
    Entries.keys (dumpFields fields) ⊆ fields.map (·.1.key) := by
  induction fields with
  | nil => exact List.nil_subset _
  | cons f fields ih =>
    obtain ⟨l, o⟩ := f
    rw [dumpFields]
    split
    · exact List.subset_cons_of_subset _ ih
    · exact List.cons_subset_cons _ ih

/-- A field stands under its own key, unless it is null. -/
theorem find?_dumpFields {fields : List (Label × Outline)} (hn : (fields.map (·.1.key)).Nodup)
    {l : Label} {o : Outline} (h : (l, o) ∈ fields) :
    Entries.find? l.key (dumpFields fields) = if o.isNull then none else some o.dump := by
  induction fields with
  | nil => cases h
  | cons f fields ih =>
    obtain ⟨l', o'⟩ := f
    obtain ⟨hfresh, hn⟩ := List.nodup_cons.1 hn
    rw [dumpFields_cons, Entries.find?_append]
    rcases List.mem_cons.1 h with heq | htail
    · cases heq
      have hnone : Entries.find? l.key (dumpFields fields) = none :=
        Entries.find?_eq_none_iff.2 fun hk => hfresh (keys_dumpFields_subset fields hk)
      rw [hnone]
      cases o.isNull <;> simp [Entries.ofOption, Entries.find?]
    · have hne : l'.key ≠ l.key := by
        intro hk
        exact hfresh (List.mem_map.2 ⟨(l, o), htail, hk.symm⟩)
      rw [ih hn htail]
      cases o'.isNull <;> simp [Entries.ofOption, Entries.find?, hne]

theorem fieldsDumpable_iff {fields : List (Label × Outline)} :
    fieldsDumpable fields = true ↔ ∀ f ∈ fields, f.2.dumpable = true := by
  induction fields with
  | nil => simp [fieldsDumpable]
  | cons f fields ih => simp [fieldsDumpable, ih]

/-- A record has a form as plain data exactly when its fields do. -/
theorem dumpable_record_iff {name : String} {fields : List (Label × Outline)} :
    (record name fields).dumpable = true ↔ ∀ f ∈ fields, f.2.dumpable = true := by
  rw [dumpable, fieldsDumpable_iff]

theorem dumpable_plainRecord_iff {name : String} {fields : List (String × Outline)} :
    (plainRecord name fields).dumpable = true ↔ ∀ f ∈ fields, f.2.dumpable = true := by
  rw [plainRecord, dumpable_record_iff, List.forall_mem_map]

theorem dumpable_list_iff {os : List Outline} :
    (seq .list os).dumpable = true ↔ areDumpable os = true := by
  simp [dumpable, Brackets.unordered]

end Outline

end SearchRequest
