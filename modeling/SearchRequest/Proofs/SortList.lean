import SearchRequest.Proofs.NestedSort
/-
What sort options compile to. Each payload has one form of entry, or is refused (`SortsBy`,
`Refuses`), and the entries of a list are those of its fields in order, without the document id when
sorting by it is not allowed. So a list compiles unless one of its fields is refused, the first of
which is then reported, and nothing else is left out (`Sort.entries_complete`).
-/
namespace SearchRequest.Sort

/-! ## Payloads -/

/-- The value of a key in a payload, unless it is null. -/
def given? (payload : Entries) (key : String) : Option Value :=
  (Entries.find? key payload).filter (!·.isNull)

/-- The value of a key in a payload, if it counts as present. -/
def chosen? (payload : Entries) (key : String) : Option Value :=
  (Entries.find? key payload).filter Value.truthy

/-- The direction that a payload asks for. -/
def direction (payload : Entries) : Value :=
  (chosen? payload "order").getD (.str "asc")

/-- The path that a payload asks for, when it sorts by a nested field. -/
def nestedPath? (field : String) (payload : Entries) : Option Value :=
  (chosen? payload "is_nested").map fun _ =>
    (chosen? payload "path").getD (.str (Field.firstSegment field))

/-- Some keys of a payload with their values, without those that are null. -/
def parameters (payload : Entries) (keys : List String) : Entries :=
  keys.flatMap fun key => Entries.ofOption key (given? payload key)

/-- What an entry by a field says about it. -/
def fieldSpec (field : String) (payload : Entries) : Entries :=
  [("order", direction payload)] ++ parameters payload ["mode", "missing", "unmapped_type"] ++
    Entries.ofOption "nested" ((nestedPath? field payload).map (.entry "path"))

/-- What an entry by distance says beside the point. -/
def distanceParameters (payload : Entries) : Entries :=
  ("order", direction payload) :: parameters payload ["unit", "mode", "distance_type"]

/-- The document of the entry that a field has in a sort list, by its payload: a direction as it is,
the distance to a point, or the value of the field. -/
inductive SortsBy (field : String) : Value → Value → Prop
  | direction (s : String) : SortsBy field (.str s) (.entry field (.str s))
  | field {v : Value} {payload : Entries} (hpayload : mapping? v = some payload)
      (hgeo : chosen? payload "is_geo" = none) :
      SortsBy field v (.entry field (.object (fieldSpec field payload)))
  | distance {v flag pin : Value} {payload : Entries} (hpayload : mapping? v = some payload)
      (hgeo : chosen? payload "is_geo" = some flag) (hpin : given? payload "pin" = some pin) :
      SortsBy field v
        (.entry "_geo_distance" (.object (Entries.overlay [(field, pin)] (distanceParameters payload))))

/-- A payload is refused: it is neither a text nor a mapping, or it sorts by the distance to a point
that it does not give. -/
inductive Refuses (field : String) : Value → Error → Prop
  | payload {v : Value} (htext : v.text? = none) (hmapping : v.isMapping = false) :
      Refuses field v (.sortPayload field)
  | pin {v flag : Value} {payload : Entries} (hpayload : mapping? v = some payload)
      (hgeo : chosen? payload "is_geo" = some flag) (hpin : given? payload "pin" = none) :
      Refuses field v (.sortWithoutPin field)

section
variable (payload : Entries) (key : String)

theorem presentOr_eq (default : Value) :
    presentOr payload key default = (chosen? payload key).getD default := by
  unfold presentOr chosen?
  cases Entries.find? key payload with
  | none => rfl
  | some v => cases h : v.truthy <;> simp [Option.filter, h]

theorem isSet_eq : isSet payload key = (chosen? payload key).isSome := by
  unfold isSet
  rw [presentOr_eq]
  cases h : chosen? payload key with
  | none => rfl
  | some v => exact (Option.filter_eq_some_iff.1 h).2

theorem order_eq : order payload = direction payload :=
  presentOr_eq payload "order" (.str "asc")

theorem addPresent_eq (keys : List String) (spec : Entries) :
    addPresent payload keys spec = Entries.overlay spec (parameters payload keys) := by
  unfold addPresent parameters
  induction keys generalizing spec with
  | nil => rfl
  | cons key keys ih =>
    rw [List.foldl_cons, List.flatMap_cons, Entries.overlay_append, ih]
    congr 1
    unfold given?
    cases Entries.find? key payload with
    | none => rfl
    | some v => cases v <;> rfl

theorem keys_parameters_sublist (keys : List String) :
    (Entries.keys (parameters payload keys)).Sublist keys := by
  induction keys with
  | nil => exact List.Sublist.refl _
  | cons key keys ih =>
    have hcons : parameters payload (key :: keys) =
        Entries.ofOption key (given? payload key) ++ parameters payload keys := List.flatMap_cons
    rw [hcons, Entries.keys_append]
    exact (Entries.keys_ofOption_sublist key _).append ih

end

theorem byField_eq (field : String) (payload : Entries) :
    byField field payload = (field, .object (fieldSpec field payload)) := by
  have hkeys := keys_parameters_sublist payload ["mode", "missing", "unmapped_type"]
  -- None of the names is the one of the order, so what is given goes behind it.
  have hspec : addPresent payload ["mode", "missing", "unmapped_type"] [("order", order payload)] =
      [("order", direction payload)] ++ parameters payload ["mode", "missing", "unmapped_type"] := by
    rw [addPresent_eq, order_eq]
    refine Entries.overlay_of_new (hkeys.nodup (by decide)) fun k hk hmem => ?_
    obtain rfl : k = "order" := List.mem_singleton.1 hmem
    exact absurd (hkeys.subset hk) (by decide)
  unfold byField fieldSpec nestedPath?
  simp only [hspec, isSet_eq, presentOr_eq]
  cases chosen? payload "is_nested" <;> rfl

theorem byDistance_eq (field : String) (pin : Value) (payload : Entries) :
    byDistance field pin payload = ("_geo_distance",
      .object (Entries.overlay [(field, pin)] (distanceParameters payload))) := by
  rw [byDistance, addPresent_eq, order_eq]
  rfl

/-! ## Entries -/

theorem mapping?_eq_none_iff {v : Value} : mapping? v = none ↔ v.isMapping = false := by
  cases v <;> simp [mapping?, Value.isMapping]

/-- The point of a payload is neither absent nor null. -/
theorem ofMapping_eq (field : String) (payload : Entries) :
    ofMapping field payload =
      match chosen? payload "is_geo", given? payload "pin" with
      | none, _ => .ok (byField field payload)
      | some _, none => .error (.sortWithoutPin field)
      | some _, some pin => .ok (byDistance field pin payload) := by
  unfold ofMapping given?
  rw [isSet_eq]
  cases chosen? payload "is_geo" with
  | none => rfl
  | some flag =>
    cases Entries.find? "pin" payload with
    | none => rfl
    | some pin => cases pin <;> rfl

section
variable {allowId : Bool} {field : String} {v : Value} (hkept : drops allowId field = false)
include hkept

theorem entry_text (s : String) : entry allowId field (.str s) = .ok (some (field, .str s)) := by
  unfold drops at hkept
  simp [entry, hkept]

theorem entry_mapping {payload : Entries} (h : mapping? v = some payload) :
    entry allowId field v = (ofMapping field payload).map some := by
  unfold drops at hkept
  cases v <;> cases h <;> simp [entry, hkept, mapping?]

theorem entry_other (htext : v.text? = none) (hmapping : mapping? v = none) :
    entry allowId field v = .error (.sortPayload field) := by
  unfold drops at hkept
  cases v with
  | str s => cases htext
  | object | table => cases hmapping
  | _ => simp [entry, hkept, mapping?]

theorem SortsBy.entry_eq {d : Value} (h : SortsBy field v d) :
    ∃ e : Entry, entry allowId field v = .ok (some e) ∧ e.toValue = d := by
  cases h with
  | direction s => exact ⟨_, entry_text hkept s, rfl⟩
  | field hpayload hgeo =>
    refine ⟨_, ?_, rfl⟩
    rw [entry_mapping hkept hpayload, ofMapping_eq, hgeo]
    exact congrArg (fun e => Except.ok (some e)) (byField_eq field _)
  | distance hpayload hgeo hpin =>
    refine ⟨_, ?_, rfl⟩
    rw [entry_mapping hkept hpayload, ofMapping_eq, hgeo, hpin]
    exact congrArg (fun e => Except.ok (some e)) (byDistance_eq field _ _)

theorem Refuses.entry_eq {err : Error} (h : Refuses field v err) :
    entry allowId field v = .error err := by
  cases h with
  | payload htext hmapping => exact entry_other hkept htext (mapping?_eq_none_iff.2 hmapping)
  | pin hpayload hgeo hpin =>
    rw [entry_mapping hkept hpayload, ofMapping_eq, hgeo, hpin]
    rfl

end

/-- Every payload has a form of entry, or is refused. -/
theorem sortsBy_or_refuses (field : String) (v : Value) :
    (∃ d, SortsBy field v d) ∨ ∃ err, Refuses field v err := by
  cases htext : v.text? with
  | some s =>
    cases v <;> cases htext
    exact .inl ⟨_, .direction s⟩
  | none =>
    cases hpayload : mapping? v with
    | none => exact .inr ⟨_, .payload htext (mapping?_eq_none_iff.1 hpayload)⟩
    | some payload =>
      cases hgeo : chosen? payload "is_geo" with
      | none => exact .inl ⟨_, .field hpayload hgeo⟩
      | some flag =>
        cases hpin : given? payload "pin" with
        | none => exact .inr ⟨_, .pin hpayload hgeo hpin⟩
        | some pin => exact .inl ⟨_, .distance hpayload hgeo hpin⟩

theorem entry_ok_iff {allowId : Bool} {field : String} {v : Value} {e : Entry}
    (hkept : drops allowId field = false) :
    entry allowId field v = .ok (some e) ↔ SortsBy field v e.toValue := by
  constructor
  · intro h
    rcases sortsBy_or_refuses field v with ⟨d, hd⟩ | ⟨err, herr⟩
    · obtain ⟨e', he', rfl⟩ := hd.entry_eq hkept
      cases h.symm.trans he'
      exact hd
    · cases h.symm.trans (herr.entry_eq hkept)
  · intro h
    obtain ⟨e', he', heq⟩ := h.entry_eq hkept
    cases heq
    exact he'

/-! ## Sort lists -/

section
variable (allowId : Bool) (logger : String)

theorem kept_dropped {field : String} (h : drops allowId field = true) (v : Value) (rest : Entries) :
    kept allowId ((field, v) :: rest) = kept allowId rest := by
  simp [kept, h]

theorem kept_kept {field : String} (h : drops allowId field = false) (v : Value) (rest : Entries) :
    kept allowId ((field, v) :: rest) = (field, v) :: kept allowId rest := by
  simp [kept, h]

theorem mem_kept_iff {allowId : Bool} {sort : Entries} {x : String × Value} :
    x ∈ kept allowId sort ↔ x ∈ sort ∧ drops allowId x.1 = false := by
  simp [kept]

theorem entries_dropped {field : String} (h : drops allowId field = true) (v : Value)
    (rest : Entries) :
    (entries allowId logger ((field, v) :: rest)).result = (entries allowId logger rest).result := by
  rw [entries, entry_eq_none_iff.2 h]
  rfl

theorem entries_kept {field : String} {v : Value} {e : Entry} (hkept : drops allowId field = false)
    (h : SortsBy field v e.toValue) (rest : Entries) :
    (entries allowId logger ((field, v) :: rest)).result =
      (entries allowId logger rest).result.map (e :: ·) := by
  rw [entries, (entry_ok_iff hkept).2 h]
  exact Outcome.result_bind_pure _ _

theorem entries_refused {field : String} {v : Value} {err : Error}
    (hkept : drops allowId field = false) (h : Refuses field v err) (rest : Entries) :
    (entries allowId logger ((field, v) :: rest)).result = .error err := by
  rw [entries, h.entry_eq hkept]
  rfl

/-- The first of the fields whose payload is refused, with the failure. -/
def FirstRefused (fields : Entries) (err : Error) : Prop :=
  ∃ before field v after, fields = before ++ (field, v) :: after ∧ Refuses field v err ∧
    ∀ x ∈ before, ∃ d, SortsBy x.1 x.2 d

theorem SortsBy.not_refuses {field : String} {v d : Value} {err : Error} (h : SortsBy field v d) :
    ¬Refuses field v err := by
  intro hrefuses
  have hkept : drops true field = false := by simp [drops]
  obtain ⟨e, he, -⟩ := h.entry_eq hkept
  cases he.symm.trans (hrefuses.entry_eq hkept)

theorem firstRefused_cons_iff {field : String} {v : Value} {fields : Entries} {err : Error} :
    FirstRefused ((field, v) :: fields) err ↔
      Refuses field v err ∨ (∃ d, SortsBy field v d) ∧ FirstRefused fields err := by
  constructor
  · rintro ⟨before, field', v', after, hfields, hrefuses, hbefore⟩
    cases before with
    | nil =>
      cases hfields
      exact .inl hrefuses
    | cons x before =>
      cases hfields
      obtain ⟨hx, hbefore⟩ := List.forall_mem_cons.1 hbefore
      exact .inr ⟨hx, before, field', v', after, rfl, hrefuses, hbefore⟩
  · rintro (hrefuses | ⟨hsorts, before, field', v', after, rfl, hrefuses, hbefore⟩)
    · exact ⟨[], field, v, fields, rfl, hrefuses, by simp⟩
    · exact ⟨(field, v) :: before, field', v', after, rfl, hrefuses,
        List.forall_mem_cons.2 ⟨hsorts, hbefore⟩⟩

theorem exists_firstRefused {fields : Entries} {x : String × Value} {err : Error} (hx : x ∈ fields)
    (h : Refuses x.1 x.2 err) : ∃ err, FirstRefused fields err := by
  induction fields with
  | nil => cases hx
  | cons y fields ih =>
    rcases sortsBy_or_refuses y.1 y.2 with hsorts | ⟨err', hrefuses⟩
    · rcases List.mem_cons.1 hx with rfl | hx
      · obtain ⟨d, hd⟩ := hsorts
        exact absurd h hd.not_refuses
      · obtain ⟨err', herr'⟩ := ih hx
        exact ⟨err', firstRefused_cons_iff.2 (.inr ⟨hsorts, herr'⟩)⟩
    · exact ⟨err', firstRefused_cons_iff.2 (.inl hrefuses)⟩

/-- A list fails with the failure of the first field that is refused. -/
theorem entries_error_iff {sort : Entries} {err : Error} :
    (entries allowId logger sort).result = .error err ↔ FirstRefused (kept allowId sort) err := by
  induction sort with
  | nil =>
    refine ⟨fun h => (nomatch h), ?_⟩
    rintro ⟨before, field, v, after, hfields, -⟩
    cases before <;> cases hfields
  | cons x rest ih =>
    obtain ⟨field, v⟩ := x
    cases hdrops : drops allowId field with
    | true => rw [entries_dropped allowId logger hdrops, kept_dropped allowId hdrops, ih]
    | false =>
      -- The first field is refused, or it has its entry and the failure is that of the rest.
      rw [kept_kept allowId hdrops, firstRefused_cons_iff]
      rcases sortsBy_or_refuses field v with ⟨d, hd⟩ | ⟨err', herr⟩
      · obtain ⟨e, -, rfl⟩ := hd.entry_eq hdrops
        rw [entries_kept allowId logger hdrops hd, map_error_iff, ih]
        exact ⟨fun h => .inr ⟨⟨_, hd⟩, h⟩, fun h => (h.resolve_left hd.not_refuses).2⟩
      · rw [entries_refused allowId logger hdrops herr]
        constructor
        · intro h
          cases h
          exact .inl herr
        · rintro (h | ⟨⟨d, hd⟩, -⟩)
          · cases (herr.entry_eq hdrops).symm.trans (h.entry_eq hdrops)
            rfl
          · exact absurd herr hd.not_refuses

/-- The entries of a list are those of its fields, in order. -/
theorem entries_ok_iff {sort : Entries} {es : List Entry} :
    (entries allowId logger sort).result = .ok es ↔
      List.Forall₂ (fun x e => SortsBy x.1 x.2 e.toValue) (kept allowId sort) es := by
  induction sort generalizing es with
  | nil =>
    constructor
    · intro h
      cases h
      exact .nil
    · rintro ⟨⟩
      rfl
  | cons x rest ih =>
    obtain ⟨field, v⟩ := x
    cases hdrops : drops allowId field with
    | true => rw [entries_dropped allowId logger hdrops, kept_dropped allowId hdrops, ih]
    | false =>
      rw [kept_kept allowId hdrops]
      constructor
      · intro h
        rcases sortsBy_or_refuses field v with ⟨d, hd⟩ | ⟨err, herr⟩
        · obtain ⟨e, -, rfl⟩ := hd.entry_eq hdrops
          rw [entries_kept allowId logger hdrops hd] at h
          obtain ⟨more, hmore, rfl⟩ := map_ok_iff.1 h
          exact .cons hd (ih.1 hmore)
        · rw [entries_refused allowId logger hdrops herr] at h
          cases h
      · rintro (_ | ⟨hsorts, hmore⟩)
        rw [entries_kept allowId logger hdrops hsorts, ih.2 hmore]
        rfl

end

theorem Refuses.report? {field : String} {v : Value} {err : Error} (h : Refuses field v err) :
    ∃ message, err.report? = some ⟨.invalidOption, message,
      [Error.optionDetail "sort", Error.fieldDetail field]⟩ := by
  cases h <;> exact ⟨_, rfl⟩

/-- **A sort list loses nothing but a document id that is not allowed.** It fails exactly when the
payload of one of the other fields is refused, and the failure reports the first of these. Otherwise
each of the other fields has its one entry, in order, of the form that its payload has. -/
theorem entries_complete (allowId : Bool) (logger : String) (sort : Entries) :
    ((∃ err, (entries allowId logger sort).result = .error err) ↔
      ∃ x ∈ sort, drops allowId x.1 = false ∧ ∃ err, Refuses x.1 x.2 err) ∧
    (∀ err, (entries allowId logger sort).result = .error err ↔
      FirstRefused (kept allowId sort) err) ∧
    (∀ field v err, Refuses field v err → ∃ message, err.report? = some ⟨.invalidOption, message,
      [Error.optionDetail "sort", Error.fieldDetail field]⟩) ∧
    ∀ es, (entries allowId logger sort).result = .ok es ↔
      List.Forall₂ (fun x e => SortsBy x.1 x.2 e.toValue) (kept allowId sort) es := by
  refine ⟨?_, fun err => entries_error_iff allowId logger, fun _ _ _ h => h.report?,
    fun es => entries_ok_iff allowId logger⟩
  simp only [entries_error_iff]
  constructor
  · rintro ⟨err, before, field, v, after, hkept, hrefuses, -⟩
    have hmem : (field, v) ∈ kept allowId sort := by
      rw [hkept]
      exact List.mem_append_right _ List.mem_cons_self
    obtain ⟨hsort, hdrops⟩ := mem_kept_iff.1 hmem
    exact ⟨(field, v), hsort, hdrops, err, hrefuses⟩
  · rintro ⟨x, hx, hdrops, err, hrefuses⟩
    exact exists_firstRefused (mem_kept_iff.2 ⟨hx, hdrops⟩) hrefuses

end SearchRequest.Sort
