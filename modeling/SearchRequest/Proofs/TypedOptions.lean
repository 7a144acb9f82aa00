import SearchRequest.Proofs.Reread
import SearchRequest.Proofs.Outcome
/-
Options that are typed already, in place of the mapping that they were read from. They are read
again as what they are, and a request does not tell one from the other: `Options.rereads`, which
also names the exceptions. `Options.lost_nulls` shows that these are real.
-/
namespace SearchRequest

namespace Options

theorem read_object_iff {write : Bool} {es : Entries} {o : Options Value} :
    read write (.object es) = .ok o ↔ Reads write es o :=
  readEntries_eq_ok_iff

/-- Typed options of the kind that is not asked for are read again from their plain data. -/
theorem read_other {write : Bool} {o : Options Value} (hwrite : o.write.isSome ≠ write)
    (h : (Value.options o).dumpable = true) :
    read write (.options o) = read write (.object o.dump) := by
  simp only [read, if_neg hwrite, if_pos h]

theorem plain?_options {o : Options Value} (h : (Value.options o).dumpable = true) :
    plain? (.options o) = .ok (.object o.dump) := by
  have hplain : plain (.options o) = .object o.dump := o.dump_options
  rw [plain?, h, hplain]
  rfl

section
variable {write : Bool} {es : Entries} {o : Options Value} (h : Reads write es o)
  (hr : o.Rereadable)
include h hr

/-- The plain data of options is read like the entries that they were read from, except where those
have a refresh of null, which is lost, and where none may be asked for. -/
theorem Reads.read_dump {write' : Bool}
    (hnull : write' = true ∨ Entries.find? "refresh" es ≠ some .null) :
    read write' (.object o.dump) = read write' (.object es) := by
  change readEntries write' o.dump = readEntries write' es
  by_cases haccepted : write' = true ∨ "refresh" ∉ Entries.keys es
  · have hrefresh : write' = true ∨ o.refresh = none := by
      refine haccepted.imp_right fun hkey => ?_
      have hread := h.refresh
      rw [Validate.field, Validated.optional, Entries.find?_eq_none_iff.2 hkey] at hread
      exact (Validated.valid.inj hread).symm
    rw [readEntries_eq_ok_iff.2 (h.forWrite haccepted),
      readEntries_eq_ok_iff.2 (hr.reads_dump hrefresh)]
  · -- Neither is accepted, and the refresh is the reason for both.
    obtain ⟨hwrite, hkey⟩ := not_or.1 haccepted
    obtain rfl : write' = false := by simpa using hwrite
    have hkey : "refresh" ∈ Entries.keys es := Classical.not_not.1 hkey
    have hdump : "refresh" ∈ Entries.keys o.dump := by
      obtain ⟨v, hv⟩ := Entries.exists_find?_iff.2 hkey
      have hv' : v ≠ .null := by
        rintro rfl
        exact hnull.elim Bool.false_ne_true fun hne => hne hv
      obtain ⟨r, hr⟩ := Validate.exists_of_field h.refresh hv hv'
      refine Entries.exists_find?_iff.1 ⟨r.outline.dump, ?_⟩
      rw [find?_refresh_dump, hr]; rfl
    rw [h.refuses hkey, (hr.reads_dump (.inl rfl)).refuses hdump]

end

/-- Options hold no caller metadata. -/
theorem Reads.noMeta {write : Bool} {es : Entries} {o : Options Value} (h : Reads write es o) :
    Params.metaKey ∉ Entries.keys es := by
  intro hkey
  obtain ⟨e, he, hmeta⟩ := List.mem_map.1 hkey
  have hknown := h.keys e he
  rw [hmeta] at hknown
  cases write <;> exact absurd hknown (by decide)

end Options

namespace Builder

theorem of_bind {α β : Type} (a : α) (f : α → Compiled β) :
    (Outcome.of a : Compiled α) >>= f = f a := by
  have h : (Outcome.of a : Compiled α).result = .ok a := rfl
  rw [Outcome.bind_ok h, Outcome.effects_of, Effects.empty_append]

/-- Options without caller metadata are compiled as they are. -/
theorem prepareOptions_object {es : Entries} (h : Params.metaKey ∉ Entries.keys es) :
    prepareOptions (.object es) = .of (.object es) := by
  have hfind : Entries.find? Params.metaKey es = none := Entries.find?_eq_none_iff.2 h
  have herase : Entries.erase Params.metaKey es = es := by
    refine List.filter_eq_self.2 fun e he => ?_
    have hne : e.1 ≠ Params.metaKey := fun hk => h (hk ▸ List.mem_map_of_mem he)
    simpa using hne
  have hplain : Options.plain? (.object es) = .ok (.object es) := rfl
  simp only [prepareOptions, hplain, Params.splitMeta, hfind, Params.metaRows, Except.map, herase]
  rfl

theorem prepareOptions_options {o : Options Value} (h : (Value.options o).dumpable = true) :
    prepareOptions (.options o) = prepareOptions (.object o.dump) := by
  have hobject : Options.plain? (.object o.dump) = .ok (.object o.dump) := rfl
  rw [prepareOptions, Options.plain?_options h, prepareOptions, hobject]

section
variable {v v' rest rest' : Value} {write : Bool}
  (hread : Options.read write rest = Options.read write rest')
include hread

theorem assemble_congr (env : Environment) (heading body : Entries) (columns : Value) :
    assemble env write heading body columns rest = assemble env write heading body columns rest' := by
  rw [assemble, assemble, Options.compile, Options.compile, hread]

variable (hv : prepareOptions v = .of rest) (hv' : prepareOptions v' = .of rest')
include hv hv'

/-- A request depends on options only as far as they are read. -/
theorem request_congr (b : Builder) (s : Settings) (index wheres columns id : Value) :
    b.request s index wheres v columns id write = b.request s index wheres v' columns id write := by
  simp only [request, hv, hv', of_bind, assemble_congr hread]

end

theorem search_congr {v v' rest rest' : Value}
    (hread : Options.read false rest = Options.read false rest')
    (hv : prepareOptions v = .of rest) (hv' : prepareOptions v' = .of rest') (b : Builder)
    (s : Settings) (index query searchOptions wheres fields columns : Value) :
    b.search s index query searchOptions wheres v fields columns =
      b.search s index query searchOptions wheres v' fields columns := by
  simp only [search, hv, hv', of_bind, assemble_congr hread]

section
variable {write : Bool} {es : Entries} {o : Options Value} (h : Options.Reads write es o)
  (hr : o.Rereadable)
include h hr

theorem prepareOptions_typed :
    prepareOptions (.object es) = .of (.object es) ∧
      prepareOptions (.options o) = .of (.object o.dump) := by
  have hdump : Params.metaKey ∉ Entries.keys o.dump :=
    (hr.reads_dump (.inl rfl)).noMeta
  rw [prepareOptions_options hr.dumpable]
  exact ⟨prepareOptions_object h.noMeta, prepareOptions_object hdump⟩

/-- A fetch request is the same for typed options and for the entries that they were read from. -/
theorem request_typed (b : Builder) (s : Settings) (index wheres columns id : Value) {write' : Bool}
    (hnull : write' = true ∨ Entries.find? "refresh" es ≠ some .null) :
    b.request s index wheres (.options o) columns id write' =
      b.request s index wheres (.object es) columns id write' :=
  request_congr (h.read_dump hr hnull) (prepareOptions_typed h hr).2
    (prepareOptions_typed h hr).1 b s index wheres columns id

/-- A search request is the same for typed options and for the entries that they were read from. -/
theorem search_typed (b : Builder) (s : Settings)
    (index query searchOptions wheres fields columns : Value)
    (hnull : Entries.find? "refresh" es ≠ some .null) :
    b.search s index query searchOptions wheres (.options o) fields columns =
      b.search s index query searchOptions wheres (.object es) fields columns :=
  search_congr (h.read_dump hr (.inr hnull)) (prepareOptions_typed h hr).2
    (prepareOptions_typed h hr).1 b s index query searchOptions wheres fields columns

end

end Builder

/-! ## Typed options -/

namespace Options

/-- Options that were read from a mapping, as plain data, are read again as what they are. They
pass from requests that do not write to those that do, and back when they ask for no refresh.
Requests do not tell them from the mapping, with one exception: a refresh of null is a key that only
requests that write know, and their plain data is without it. -/
theorem rereads {write : Bool} {es : Entries} {o : Options Value}
    (h : read write (.object es) = .ok o) (hplain : ∀ v ∈ o.freeForm, v.isPlain = true)
    (hcorner : ¬o.LosesCorner) :
    plain? (.options o) = .ok (.object o.dump) ∧
    read write (.object o.dump) = .ok o ∧
    (write = false → read true (.options o) = .ok { o with write := some ⟨none⟩ }) ∧
    (write = true → ((∃ o', read false (.options o) = .ok o') ↔ o.refresh = none)) ∧
    (∀ (b : Builder) (s : Settings) (index wheres columns id : Value) (allowRefresh : Bool),
      allowRefresh = true ∨ Entries.find? "refresh" es ≠ some .null →
        b.request s index wheres (.options o) columns id allowRefresh =
          b.request s index wheres (.object es) columns id allowRefresh) ∧
    (∀ (b : Builder) (s : Settings) (index query searchOptions wheres fields columns : Value),
      Entries.find? "refresh" es ≠ some .null →
        b.search s index query searchOptions wheres (.options o) fields columns =
          b.search s index query searchOptions wheres (.object es) fields columns) ∧
    (Entries.find? "refresh" es = some .null →
      read false (.object es) = .error (.unknownOption "refresh") ∧
        read false (.options o) = .ok { o with write := none }) := by
  have hread : Reads write es o := read_object_iff.1 h
  have hr : o.Rereadable := hread.rereadable hplain hcorner
  refine ⟨plain?_options hr.dumpable, ?again, ?asWrite, ?asFetch, ?request, ?search, ?null⟩
  case again =>
    have hwrite : write = true ∨ o.refresh = none := by
      cases write with
      | true => exact .inl rfl
      | false => exact .inr (by rw [← hread.forWrite_eq]; rfl)
    have hdump := hr.reads_dump hwrite
    rw [hread.forWrite_eq] at hdump
    exact read_object_iff.2 hdump
  case asWrite =>
    rintro rfl
    have hnone : o.refresh = none := by rw [← hread.forWrite_eq]; rfl
    have hdump := read_object_iff.2 (hr.reads_dump (.inl rfl))
    rw [read_other (by rw [hread.isSome_write]; decide) hr.dumpable, hdump, forWrite, hnone]
    rfl
  case asFetch =>
    rintro rfl
    rw [read_other (by rw [hread.isSome_write]; decide) hr.dumpable]
    constructor
    · rintro ⟨o', ho'⟩
      cases hrefresh : o.refresh with
      | none => rfl
      | some r =>
        have hkey : "refresh" ∈ Entries.keys o.dump :=
          Entries.exists_find?_iff.1 ⟨r.outline.dump, by rw [find?_refresh_dump, hrefresh]; rfl⟩
        have hrefused := (hr.reads_dump (.inl rfl)).refuses hkey
        cases ho'.symm.trans hrefused
    · intro hnone
      exact ⟨_, read_object_iff.2 (hr.reads_dump (.inr hnone))⟩
  case request =>
    intro b s index wheres columns id allowRefresh hnull
    exact Builder.request_typed hread hr b s index wheres columns id hnull
  case search =>
    intro b s index query searchOptions wheres fields columns hnull
    exact Builder.search_typed hread hr b s index query searchOptions wheres fields columns hnull
  case null =>
    intro hnull
    have hkey : "refresh" ∈ Entries.keys es := Entries.exists_find?_iff.1 ⟨_, hnull⟩
    obtain rfl : write = true := hread.eq_true hkey
    have hnone : none = o.refresh := by
      have hrefresh := hread.refresh
      rw [Validate.field, Validated.optional, hnull] at hrefresh
      exact Validated.valid.inj hrefresh
    refine ⟨hread.refuses hkey, ?_⟩
    rw [read_other (by rw [hread.isSome_write]; decide) hr.dumpable]
    exact read_object_iff.2 (hr.reads_dump (.inr hnone.symm))

/-- Options of a request that writes, with a box. -/
theorem rereads_box :
    let es : Entries := [("refresh", .str "wait_for"), ("limit", .int 5),
      ("filters", .object [("filterGeoBox", .object
        [("field", .str "place"), ("topLeft", .list [.int 2, .int 1]), ("bottomRight", .str "b")])]),
      ("sort", .object [("seen", .str "desc"), ("name", .null)])]
    let o : Options Value :=
      { limit := some 5
        sort := some [("seen", .str "desc"), ("name", .null)]
        filters := some ⟨some ⟨"place", .list [.int 2, .int 1], .str "b"⟩, none⟩
        write := some ⟨some .waitFor⟩ }
    let b : Builder := {}
    read true (.object es) = .ok o ∧ (∀ v ∈ o.freeForm, v.isPlain = true) ∧ ¬o.LosesCorner ∧
      read true (.object o.dump) = .ok o ∧ (¬∃ o', read false (.options o) = .ok o') ∧
      b.request {} (.str "posts") .null (.options o) .null .null true =
        b.request {} (.str "posts") .null (.object es) .null .null true := by
  intro es o b
  have h : read true (.object es) = .ok o := rfl
  have hplain : ∀ v ∈ o.freeForm, v.isPlain = true := by decide
  have hcorner : ¬o.LosesCorner := by
    rintro ⟨_, hb, hnull⟩
    cases hb
    rcases hnull with hnull | hnull <;> cases hnull
  obtain ⟨-, hagain, -, hfetch, hrequest, -⟩ := rereads h hplain hcorner
  refine ⟨h, hplain, hcorner, hagain, ?_, ?_⟩
  · rw [hfetch rfl]
    exact Option.some_ne_none _
  · exact hrequest b {} (.str "posts") .null .null .null true (.inl rfl)

/-- Two kinds of null are lost. A box with a corner of null is read, and its plain data is refused.
A refresh of null is refused by a request that may not write, and the options read from it are
not. -/
theorem lost_nulls :
    (let es : Entries := [("filters", .object [("filterGeoBox", .object
        [("field", .str "a"), ("topLeft", .null), ("bottomRight", .str "b")])])]
      ∃ o, read false (.object es) = .ok o ∧ (∀ v ∈ o.freeForm, v.isPlain = true) ∧
        plain? (.options o) = .ok (.object o.dump) ∧
        read false (.object o.dump) =
          .error (.invalidOption ⟨["filters", "filterGeoBox", "topLeft"], .missing⟩)) ∧
    (let es : Entries := [("refresh", .null)]
      let b : Builder := {}
      ∃ o, read true (.object es) = .ok o ∧ (∀ v ∈ o.freeForm, v.isPlain = true) ∧
        (b.request {} (.str "i") .null (.object es) .null .null false).result =
          .error (.unknownOption "refresh") ∧
        ∃ req, (b.request {} (.str "i") .null (.options o) .null .null false).result = .ok req) := by
  refine ⟨⟨{ filters := some ⟨some ⟨"a", .null, .str "b"⟩, none⟩ }, rfl, by decide, rfl, rfl⟩,
    { write := some ⟨none⟩ }, rfl, by decide, ?_, ?_⟩
  · rfl
  · exact exists_ok_of_isOk (by decide +kernel)

end Options

end SearchRequest
