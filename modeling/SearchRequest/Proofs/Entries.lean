import SearchRequest.Entries
/-
Looking up a key in entries that were put together: the first entries count in a joined list, and
the top ones in an overlay, which leaves the keys alone that it does not name and takes none away.
Entries with new keys go to the end, and the order of entries with keys of their own does not matter.
Laying entries on one after the other keeps the last value of every key and no key twice.
-/
namespace SearchRequest.Entries

variable {V : Type}

theorem find?_append (k : String) (es es' : List (String × V)) :
    find? k (es ++ es') = (find? k es).or (find? k es') := by
  induction es with
  | nil => rfl
  | cons e es ih =>
    obtain ⟨k', v⟩ := e
    by_cases h : k' = k <;> simp [find?, h, ih]

theorem mem_of_find? {k : String} {v : V} {es : List (String × V)} (h : find? k es = some v) :
    (k, v) ∈ es := by
  induction es with
  | nil => cases h
  | cons e es ih =>
    obtain ⟨k', v'⟩ := e
    rw [find?] at h
    split at h
    · rename_i hk
      cases h
      rw [hk]
      exact List.mem_cons_self
    · exact List.mem_cons_of_mem _ (ih h)

theorem find?_eq_none_iff {k : String} {es : List (String × V)} :
    find? k es = none ↔ k ∉ keys es := by
  induction es with
  | nil => simp [find?, keys]
  | cons e es ih =>
    obtain ⟨k', v⟩ := e
    by_cases h : k' = k
    · simp [find?, keys, h]
    · have h' : k ≠ k' := Ne.symm h
      simpa [find?, keys, h, h'] using ih

theorem exists_find?_iff {k : String} {es : List (String × V)} :
    (∃ v, find? k es = some v) ↔ k ∈ keys es := by
  rw [← Option.ne_none_iff_exists', Ne, find?_eq_none_iff, Classical.not_not]

theorem mem_keys_iff {k : String} {es : List (String × V)} :
    k ∈ keys es ↔ (find? k es).isSome = true := by
  rw [← exists_find?_iff, Option.isSome_iff_exists]

/-- An entry does not change what stands under other keys. -/
theorem find?_among {k k' : String} (h : k ≠ k') (before after : List (String × V)) (v : V) :
    find? k (before ++ (k', v) :: after) = find? k (before ++ after) := by
  rw [find?_append, find?_append, find?, if_neg (Ne.symm h)]

theorem find?_overlay_other {k : String} {top : List (String × V)} (h : ∀ e ∈ top, k ≠ e.1)
    (base : List (String × V)) : find? k (overlay base top) = find? k base := by
  induction top generalizing base with
  | nil => rfl
  | cons e top ih =>
    rw [overlay_cons, ih (fun e' he' => h e' (by simp [he'])), find?_insert_other (h e (by simp))]

theorem find?_insert (k k' : String) (v : V) (es : List (String × V)) :
    find? k (insert k' v es) = if k' = k then some v else find? k es := by
  by_cases h : k' = k
  · rw [if_pos h, h, find?_insert_self]
  · rw [if_neg h, find?_insert_other (Ne.symm h)]

/-- A key is looked up in what was laid on top first. -/
theorem find?_overlay (k : String) (base top : List (String × V)) :
    find? k (overlay base top) = (find? k (overlay [] top)).or (find? k base) := by
  induction top generalizing base with
  | nil => rfl
  | cons e top ih =>
    have hinsert : find? k (insert e.1 e.2 base) =
        (find? k (insert e.1 e.2 [])).or (find? k base) := by
      rw [find?_insert, find?_insert]
      by_cases h : e.1 = k <;> simp [h, find?]
    rw [overlay_cons, overlay_cons, ih, ih (insert e.1 e.2 []), hinsert, Option.or_assoc]

/-- Erasing a key leaves the others. -/
theorem find?_erase_other {k k' : String} (h : k' ≠ k) (es : List (String × V)) :
    find? k' (erase k es) = find? k' es := by
  induction es with
  | nil => rfl
  | cons e es ih =>
    obtain ⟨k₁, v⟩ := e
    by_cases hk : k₁ = k
    · subst hk
      have hdrop : erase k₁ ((k₁, v) :: es) = erase k₁ es := by simp [erase]
      rw [hdrop, ih, find?, if_neg (Ne.symm h)]
    · have hkeep : erase k ((k₁, v) :: es) = (k₁, v) :: erase k es := by simp [erase, hk]
      rw [hkeep, find?, find?, ih]

theorem erase_append (k : String) (before after : List (String × V)) :
    erase k (before ++ after) = erase k before ++ erase k after :=
  List.filter_append ..

theorem erase_cons_other {k k' : String} (h : k' ≠ k) (v : V) (es : List (String × V)) :
    erase k ((k', v) :: es) = (k', v) :: erase k es := by
  simp [erase, h]

theorem erase_comm (k k' : String) (es : List (String × V)) :
    erase k (erase k' es) = erase k' (erase k es) := by
  simp only [erase, List.filter_filter, Bool.and_comm]

theorem mem_keys_erase {k k' : String} {es : List (String × V)} :
    k ∈ keys (erase k' es) ↔ k ≠ k' ∧ k ∈ keys es := by
  simp only [keys, erase, List.mem_map, List.mem_filter, decide_eq_true_eq]
  constructor
  · rintro ⟨e, ⟨he, hne⟩, rfl⟩
    exact ⟨hne, e, he, rfl⟩
  · rintro ⟨hne, e, he, rfl⟩
    exact ⟨e, ⟨he, hne⟩, rfl⟩

theorem keys_subset_insert (k : String) (v : V) (es : List (String × V)) :
    keys es ⊆ keys (insert k v es) := by
  induction es with
  | nil => exact List.nil_subset _
  | cons e es ih =>
    obtain ⟨k', v'⟩ := e
    by_cases h : k' = k
    · simp [insert, keys, h]
    · simpa [insert, h, keys] using List.subset_cons_of_subset k' ih

theorem keys_insert_subset (k : String) (v : V) (es : List (String × V)) :
    keys (insert k v es) ⊆ k :: keys es := by
  intro k' h
  obtain ⟨v', hv'⟩ := exists_find?_iff.2 h
  rw [find?_insert] at hv'
  split at hv'
  · rename_i hk
    exact hk ▸ List.mem_cons_self
  · exact List.mem_cons_of_mem _ (exists_find?_iff.1 ⟨v', hv'⟩)

/-- Overlaying takes no key away. -/
theorem keys_subset_overlay (base top : List (String × V)) : keys base ⊆ keys (overlay base top) := by
  induction top generalizing base with
  | nil => exact List.Subset.refl _
  | cons e top ih => exact List.Subset.trans (keys_subset_insert e.1 e.2 base) (ih _)

/-- Overlaying brings only the keys of what is laid on top. -/
theorem keys_overlay_subset (base top : List (String × V)) :
    keys (overlay base top) ⊆ keys base ++ keys top := by
  induction top generalizing base with
  | nil => exact List.subset_append_left _ _
  | cons e top ih =>
    intro k h
    rcases List.mem_append.1 (ih _ h) with h | h
    · rcases List.mem_cons.1 (keys_insert_subset e.1 e.2 base h) with rfl | h
      · exact List.mem_append_right _ List.mem_cons_self
      · exact List.mem_append_left _ h
    · exact List.mem_append_right _ (List.mem_cons_of_mem _ h)

theorem find?_ofOption (k k' : String) (o : Option V) :
    find? k (ofOption k' o) = if k' = k then o else none := by
  cases o <;> simp [ofOption, find?]

theorem key_of_mem_ofOption {k : String} {o : Option V} {e : String × V} (h : e ∈ ofOption k o) :
    e.1 = k := by
  cases o with
  | none => cases h
  | some v => rw [List.mem_singleton.1 h]

/-! ## Entries with keys of their own -/

theorem keys_append (es es' : List (String × V)) : keys (es ++ es') = keys es ++ keys es' :=
  List.map_append

theorem keys_ofOption_sublist (k : String) (o : Option V) : (keys (ofOption k o)).Sublist [k] := by
  cases o with
  | none => exact List.nil_sublist _
  | some v => exact List.Sublist.refl _

/-- An entry with a new key goes to the end. -/
theorem insert_of_notMem {k : String} {es : List (String × V)} (h : k ∉ keys es) (v : V) :
    insert k v es = es ++ [(k, v)] := by
  induction es with
  | nil => rfl
  | cons e es ih =>
    have hne : e.1 ≠ k := Ne.symm (List.ne_of_not_mem_cons h)
    rw [insert, if_neg hne, ih (List.not_mem_of_not_mem_cons h), List.cons_append]

/-- An entry is changed where it stands. -/
theorem insert_append_cons {k : String} {es : List (String × V)} (h : k ∉ keys es) (v w : V)
    (more : List (String × V)) : insert k v (es ++ (k, w) :: more) = es ++ (k, v) :: more := by
  induction es with
  | nil => simp [insert]
  | cons e es ih =>
    have hne : e.1 ≠ k := Ne.symm (List.ne_of_not_mem_cons h)
    rw [List.cons_append, insert, if_neg hne, ih (List.not_mem_of_not_mem_cons h), List.cons_append]

theorem find?_append_cons {k : String} {es : List (String × V)} (h : k ∉ keys es) (v : V)
    (more : List (String × V)) : find? k (es ++ (k, v) :: more) = some v := by
  rw [find?_append, find?_eq_none_iff.2 h]
  simp [find?]

/-- The order of entries with keys of their own does not matter for looking them up. -/
theorem find?_of_perm {es es' : List (String × V)} (h : es.Perm es') (hn : (keys es).Nodup)
    (k : String) : find? k es = find? k es' := by
  induction h with
  | nil => rfl
  | cons e _ ih =>
    rw [find?, find?, ih (List.nodup_cons.1 hn).2]
  | swap e e' es =>
    have hne : e'.1 ≠ e.1 := by
      intro heq
      have hmem : e'.1 ∈ keys (e :: es) := by simp [keys, heq]
      exact (List.nodup_cons.1 hn).1 hmem
    by_cases hk : e'.1 = k
    · have hk' : e.1 ≠ k := fun heq => hne (hk.trans heq.symm)
      simp only [find?, if_pos hk, if_neg hk']
    · simp only [find?, if_neg hk]
  | trans h₁ _ ih₁ ih₂ =>
    exact (ih₁ hn).trans (ih₂ ((h₁.map Prod.fst).nodup_iff.1 hn))

/-- Entries with new keys are added at the end, one after the other. -/
theorem foldl_of_new {step : List (String × V) → String × V → List (String × V)}
    (hstep : ∀ es e, e.1 ∉ keys es → step es e = es ++ [e]) {base top : List (String × V)}
    (hnodup : (keys top).Nodup) (hnew : ∀ k ∈ keys top, k ∉ keys base) :
    top.foldl step base = base ++ top := by
  induction top generalizing base with
  | nil => simp
  | cons e top ih =>
    obtain ⟨hfirst, htop⟩ := List.nodup_cons.1 hnodup
    obtain ⟨hbase, hrest⟩ := List.forall_mem_cons.1 hnew
    have hnew' : ∀ k ∈ keys top, k ∉ keys (base ++ [e]) := by
      intro k hk hmem
      rw [keys_append] at hmem
      rcases List.mem_append.1 hmem with hmem | hmem
      · exact hrest k hk hmem
      · exact hfirst (List.mem_singleton.1 hmem ▸ hk)
    rw [List.foldl_cons, hstep base e hbase, ih htop hnew', List.append_assoc,
      List.singleton_append]

theorem overlay_of_new {base top : List (String × V)} (hnodup : (keys top).Nodup)
    (hnew : ∀ k ∈ keys top, k ∉ keys base) : overlay base top = base ++ top :=
  foldl_of_new (fun _ _ h => insert_of_notMem h _) hnodup hnew

/-! ## Entries laid on one after the other -/

theorem find?_eq_some_iff {k : String} {v : V} {es : List (String × V)} (hn : (keys es).Nodup) :
    find? k es = some v ↔ (k, v) ∈ es := by
  constructor
  · exact mem_of_find?
  · intro h
    obtain ⟨before, after, rfl⟩ := List.append_of_mem h
    rw [keys_append] at hn
    have hfresh : k ∉ keys before := by
      intro hk
      exact (List.nodup_append.1 hn).2.2 k hk k List.mem_cons_self rfl
    exact find?_append_cons hfresh v after

theorem insert_insert (k : String) (v w : V) (es : List (String × V)) :
    insert k v (insert k w es) = insert k v es := by
  induction es with
  | nil => simp [insert]
  | cons e es ih =>
    by_cases h : e.1 = k <;> simp [insert, h, ih]

/-- A key that is present keeps its place, whatever is added. -/
theorem insert_comm {k k' : String} {es : List (String × V)} (hk : k ∈ keys es) (hne : k' ≠ k)
    (v w : V) : insert k' w (insert k v es) = insert k v (insert k' w es) := by
  induction es with
  | nil => cases hk
  | cons e es ih =>
    by_cases h : e.1 = k
    · have h' : e.1 ≠ k' := fun heq => hne (heq.symm.trans h)
      simp [insert, h, Ne.symm hne]
    · have hk : k ∈ keys es := (List.mem_cons.1 hk).resolve_left (Ne.symm h)
      by_cases h' : e.1 = k' <;> simp [insert, h, h', hne, ih hk]

theorem mem_keys_insert_self (k : String) (v : V) (es : List (String × V)) :
    k ∈ keys (insert k v es) :=
  exists_find?_iff.1 ⟨v, find?_insert_self k v es⟩

/-- A value that is overwritten under a key that nothing is laid on for. -/
theorem insert_overlay {k : String} {base top : List (String × V)} (hk : k ∈ keys base)
    (htop : k ∉ keys top) (v : V) : insert k v (overlay base top) = overlay (insert k v base) top := by
  induction top generalizing base with
  | nil => rfl
  | cons e top ih =>
    have hne : e.1 ≠ k := Ne.symm (List.ne_of_not_mem_cons htop)
    rw [overlay_cons, overlay_cons, insert_comm hk hne,
      ih (keys_subset_insert e.1 e.2 base hk) (List.not_mem_of_not_mem_cons htop)]

theorem nodup_keys_insert {es : List (String × V)} (hn : (keys es).Nodup) (k : String) (v : V) :
    (keys (insert k v es)).Nodup := by
  induction es with
  | nil => simp [insert, keys]
  | cons e es ih =>
    obtain ⟨hfresh, hes⟩ := List.nodup_cons.1 hn
    by_cases h : e.1 = k
    · have heq : keys (insert k v (e :: es)) = keys (e :: es) := by simp [insert, h, keys]
      rw [heq]
      exact hn
    · rw [insert, if_neg h]
      refine List.nodup_cons.2 ⟨fun hmem => ?_, ih hes⟩
      rcases List.mem_cons.1 (keys_insert_subset k v es hmem) with heq | hmem
      · exact h heq
      · exact hfresh hmem

theorem nodup_keys_overlay {base : List (String × V)} (hn : (keys base).Nodup)
    (top : List (String × V)) : (keys (overlay base top)).Nodup := by
  induction top generalizing base with
  | nil => exact hn
  | cons e top ih => exact ih (nodup_keys_insert hn e.1 e.2)

theorem overlay_insert {es : List (String × V)} (hn : (keys es).Nodup) (base : List (String × V))
    (k : String) (v : V) : overlay base (insert k v es) = insert k v (overlay base es) := by
  induction es generalizing base with
  | nil => rfl
  | cons e es ih =>
    obtain ⟨hfresh, hes⟩ := List.nodup_cons.1 hn
    by_cases h : e.1 = k
    · subst h
      rw [insert, if_pos rfl, overlay_cons, overlay_cons,
        insert_overlay (mem_keys_insert_self e.1 e.2 base) hfresh, insert_insert]
    · rw [insert, if_neg h, overlay_cons, ih hes, overlay_cons]

/-- Entries may be put together before they are laid on. -/
theorem overlay_overlay (base es : List (String × V)) :
    overlay base (overlay [] es) = overlay base es := by
  have key : ∀ acc : List (String × V), (keys acc).Nodup →
      overlay base (overlay acc es) = overlay (overlay base acc) es := by
    induction es with
    | nil => exact fun _ _ => rfl
    | cons e es ih =>
      intro acc hacc
      rw [overlay_cons, ih _ (nodup_keys_insert hacc e.1 e.2), overlay_insert hacc, overlay_cons]
  exact key [] List.nodup_nil

/-- The last entry of a key counts. -/
theorem find?_overlay_nil (k : String) (es : List (String × V)) :
    find? k (overlay [] es) = find? k es.reverse := by
  induction es with
  | nil => rfl
  | cons e es ih =>
    rw [overlay_cons, find?_overlay, ih, List.reverse_cons, find?_append]
    rfl

theorem mem_keys_overlay_nil {k : String} {es : List (String × V)} :
    k ∈ keys (overlay [] es) ↔ k ∈ keys es := by
  rw [← exists_find?_iff, find?_overlay_nil, exists_find?_iff]
  simp [keys]

theorem insert_map {f : String → String} (hf : Function.Injective f) (k : String) (v : V)
    (es : List (String × V)) :
    insert (f k) v (es.map (Prod.map f id)) = (insert k v es).map (Prod.map f id) := by
  induction es with
  | nil => rfl
  | cons e es ih =>
    by_cases h : e.1 = k
    · simp [insert, h, Prod.map]
    · have h' : f e.1 ≠ f k := fun heq => h (hf heq)
      simp [insert, h, h', ih, Prod.map]

/-- Renaming keys apart from each other. -/
theorem overlay_map {f : String → String} (hf : Function.Injective f) (base top : List (String × V)) :
    overlay (base.map (Prod.map f id)) (top.map (Prod.map f id)) =
      (overlay base top).map (Prod.map f id) := by
  induction top generalizing base with
  | nil => rfl
  | cons e top ih =>
    rw [List.map_cons, overlay_cons, overlay_cons, ← ih, ← insert_map hf]
    rfl

end SearchRequest.Entries
