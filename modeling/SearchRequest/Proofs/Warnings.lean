import SearchRequest.Proofs.Reading
/-
Warnings about ignored connectives. A warning is due at every place where a mapping is read as a tree
that holds both connectives (`Reading.Warns`), and the log of a reading lists exactly those, once each
and in the order of the document: `Parse.listed_tree?`. A failed reading has warned of what it read
before the failure.
-/
namespace SearchRequest

namespace Reading

open Grammar

/-- A mapping holds connectives only, and more than one. The first one is honored and the second one
ignored. -/
structure Competes (m : Entries) (honored ignored : String) : Prop where
  only : ∀ key ∈ Entries.keys m, key = "and" ∨ key = "or"
  first : ∃ rest, Entries.keys m = honored :: ignored :: rest

/-- In a mapping no key stands twice, so those are both connectives, in one order or the other. -/
theorem competes_iff {m : Entries} (hn : (Entries.keys m).Nodup) (honored ignored : String) :
    Competes m honored ignored ↔ Entries.keys m = [honored, ignored] ∧
      (honored = "and" ∧ ignored = "or" ∨ honored = "or" ∧ ignored = "and") := by
  constructor
  · rintro ⟨honly, rest, hkeys⟩
    rw [hkeys] at hn honly
    have hfirst := honly honored (by simp)
    have hsecond := honly ignored (by simp)
    match rest with
    | [] =>
      refine ⟨hkeys, ?_⟩
      have hne : honored ≠ ignored := by simpa using hn
      rcases hfirst with rfl | rfl <;> rcases hsecond with rfl | rfl
      · exact absurd rfl hne
      · exact .inl ⟨rfl, rfl⟩
      · exact .inr ⟨rfl, rfl⟩
      · exact absurd rfl hne
    | third :: rest =>
      have hthird := honly third (by simp)
      simp only [List.nodup_cons, List.mem_cons, not_or] at hn
      obtain ⟨⟨h12, h13, -⟩, ⟨h23, -⟩, -⟩ := hn
      rcases hfirst with rfl | rfl <;> rcases hsecond with rfl | rfl <;>
        rcases hthird with rfl | rfl <;> contradiction
  · rintro ⟨hkeys, h⟩
    refine ⟨fun key hkey => ?_, [], hkeys⟩
    rw [hkeys] at hkey
    rcases h with ⟨rfl, rfl⟩ | ⟨rfl, rfl⟩ <;> simpa [or_comm] using hkey

/-! ## Warnings that are due -/

/-- A warning is due at a place where a mapping is read as a tree that holds both connectives. -/
def Warns (part : Part) (p : Place) (r : LogRecord) : Prop :=
  ∃ m honored ignored, Leads part p (.tree (.object m)) ∧ Competes m honored ignored ∧
    r = Parse.ignoredWarning honored ignored

/-- A warning is due further inside a part. -/
def WarnsInside (part : Part) (p : Place) (r : LogRecord) : Prop :=
  ∃ i next q, Step part i next ∧ p = i :: q ∧ Warns next q r

/-- A warning is due in an item of a list, of which `k` items were read before. An item is gone into
as the parts that it `enters`. -/
def WarnsAmong {α : Type} (passes : α → Prop) (enters : α → Part → Prop) (items : List α) (k : Nat)
    (p : Place) (r : LogRecord) : Prop :=
  ∃ i a next q, Reached passes items i a ∧ enters a next ∧ p = (k + i) :: q ∧ Warns next q r

theorem warns_iff {part : Part} {p : Place} {r : LogRecord} :
    Warns part p r ↔ (p = [] ∧ ∃ m honored ignored, part = .tree (.object m) ∧
      Competes m honored ignored ∧ r = Parse.ignoredWarning honored ignored) ∨
      WarnsInside part p r := by
  constructor
  · rintro ⟨m, honored, ignored, hm, h⟩
    cases hm with
    | here => exact .inl ⟨rfl, m, honored, ignored, rfl, h⟩
    | step hstep hm => exact .inr ⟨_, _, _, hstep, rfl, m, honored, ignored, hm, h⟩
  · rintro (⟨rfl, m, honored, ignored, rfl, h⟩ | ⟨i, next, q, hstep, rfl, m, honored, ignored, hm, h⟩)
    · exact ⟨m, honored, ignored, .here _, h⟩
    · exact ⟨m, honored, ignored, .step hstep hm, h⟩

section
variable {part next : Part} {log : List LogRecord}

/-- A part that is no tree, or a tree without a choice of connectives, warns of nothing itself. -/
theorem listed_of_inside
    (hpart : ∀ m, part = .tree (.object m) → ∀ honored ignored, ¬ Competes m honored ignored)
    (h : Listed (WarnsInside part) log) : Listed (Warns part) log := by
  refine h.congr fun p r => warns_iff.trans (or_iff_right ?_)
  rintro ⟨-, m, honored, ignored, hm, hcompetes, -⟩
  exact hpart m hm honored ignored hcompetes

theorem listed_leaf (h : ∀ i next, ¬ Step part i next) : Listed (WarnsInside part) [] :=
  .nothing fun _ _ ⟨i, next, _, hstep, _⟩ => h i next hstep

/-- A part that is not of a shape in which anything is read. -/
theorem listed_shut (h : part.isOpen = false) : Listed (WarnsInside part) [] :=
  listed_leaf fun _ _ hstep => Bool.false_ne_true (h.symm.trans hstep.isOpen)

/-- A part with one step warns of what is due behind it. -/
theorem listed_single (hstep : Step part 0 next)
    (honly : ∀ {i next'}, Step part i next' → i = 0) (h : Listed (Warns next) log) :
    Listed (WarnsInside part) log := by
  refine (h.inside 0).congr fun p r => ?_
  constructor
  · rintro ⟨i, next', q, hstep', rfl, hq⟩
    obtain rfl := honly hstep'
    rw [hstep'.unique hstep] at hq
    exact ⟨q, rfl, hq⟩
  · rintro ⟨q, rfl, hq⟩
    exact ⟨0, next, q, hstep, rfl, hq⟩

end

/-! ## Trees -/

theorem Step.of_tree {m : Entries} {next : Part} {i : Nat} (h : Step (.tree (.object m)) i next) :
    i = 0 := by
  cases h <;> rfl

/-- A mapping of connectives warns of its own choice before anything inside it does. -/
theorem listed_choice {m : Entries} {log : List LogRecord}
    (hm : ∀ key ∈ Entries.keys m, key = "and" ∨ key = "or")
    (h : Listed (WarnsInside (.tree (.object m))) log) :
    Listed (Warns (.tree (.object m))) (Parse.warnings (Entries.keys m) ++ log) := by
  have hown : Listed (fun p r => p = [] ∧ ∃ honored ignored, Competes m honored ignored ∧
      r = Parse.ignoredWarning honored ignored) (Parse.warnings (Entries.keys m)) := by
    match hkeys : Entries.keys m with
    | [] | [_] =>
      refine .nothing fun p r ⟨_, honored, ignored, ⟨_, rest, hfirst⟩, _⟩ => ?_
      cases hkeys.symm.trans hfirst
    | honored :: ignored :: rest =>
      refine (Listed.outermost (Parse.ignoredWarning honored ignored)).congr fun p r =>
        and_congr_right fun _ => ?_
      constructor
      · rintro ⟨honored', ignored', ⟨_, rest', hfirst⟩, rfl⟩
        cases hkeys.symm.trans hfirst
        rfl
      · rintro rfl
        exact ⟨honored, ignored, ⟨hm, rest, hkeys⟩, rfl⟩
  refine (hown.append h ?_).congr fun p r => warns_iff.trans (or_congr_left ?_)
  · rintro _ r _ r' ⟨rfl, -⟩ ⟨i, next, q, -, rfl, -⟩
    exact List.nil_lt_cons i q
  · simp

/-- A mapping that is refused as a tree: it holds other keys than connectives, and is no condition. -/
theorem listed_refused {m : Entries} (hm : ¬ ∀ key ∈ Entries.keys m, key = "and" ∨ key = "or")
    (hone : ∀ field v, m = [(field, v)] → field = "and" ∨ field = "or") :
    Listed (Warns (.tree (.object m))) [] := by
  refine listed_of_inside (fun m' hm' honored ignored h => ?_) (listed_leaf fun i next h => ?_)
  · cases hm'
    exact hm h.only
  · cases h with
    | all hkey hrest => exact hm (List.forall_mem_cons.2 ⟨.inl hkey, hrest⟩)
    | any hkey hrest => exact hm (List.forall_mem_cons.2 ⟨.inr hkey, hrest⟩)
    | only hand hor => exact not_or.2 ⟨hand, hor⟩ (hone _ _ rfl)

/-! ## Lists -/

section
variable {α : Type} {passes : α → Prop} {enters : α → Part → Prop} {a b : α} {items : List α}

theorem reached_cons_iff {i : Nat} : Reached passes (b :: items) i a ↔
    (i = 0 ∧ a = b) ∨ ∃ j, i = j + 1 ∧ passes b ∧ Reached passes items j a := by
  constructor
  · rintro ⟨hitem, hbefore⟩
    cases i with
    | zero => exact .inl ⟨rfl, (Option.some.inj hitem).symm⟩
    | succ j =>
      rw [List.take_succ_cons, List.forall_mem_cons] at hbefore
      exact .inr ⟨j, rfl, hbefore.1, hitem, hbefore.2⟩
  · rintro (⟨rfl, rfl⟩ | ⟨j, rfl, hb, hitem, hbefore⟩)
    · exact ⟨rfl, by simp⟩
    · refine ⟨hitem, ?_⟩
      rw [List.take_succ_cons, List.forall_mem_cons]
      exact ⟨hb, hbefore⟩

theorem warnsAmong_cons_iff {k : Nat} {p : Place} {r : LogRecord} :
    WarnsAmong passes enters (b :: items) k p r ↔
      (∃ q, p = k :: q ∧ ∃ next, enters b next ∧ Warns next q r) ∨
        passes b ∧ WarnsAmong passes enters items (k + 1) p r := by
  constructor
  · rintro ⟨i, a, next, q, hreached, henters, rfl, hq⟩
    rcases reached_cons_iff.1 hreached with ⟨rfl, rfl⟩ | ⟨j, rfl, hb, hreached⟩
    · exact .inl ⟨q, rfl, next, henters, hq⟩
    · exact .inr ⟨hb, j, a, next, q, hreached, henters, by rw [Nat.add_right_comm, Nat.add_assoc], hq⟩
  · rintro (⟨q, rfl, next, henters, hq⟩ | ⟨hb, j, a, next, q, hreached, henters, rfl, hq⟩)
    · exact ⟨0, b, next, q, reached_cons_iff.2 (.inl ⟨rfl, rfl⟩), henters, rfl, hq⟩
    · exact ⟨j + 1, a, next, q, reached_cons_iff.2 (.inr ⟨j, rfl, hb, hreached⟩), henters,
        by rw [Nat.add_right_comm, Nat.add_assoc], hq⟩

theorem listed_among_nil (k : Nat) : Listed (WarnsAmong passes enters [] k) [] :=
  .nothing fun _ _ ⟨_, _, _, _, hreached, _⟩ => nomatch hreached.item

/-- Reading a list: what its first item warns of comes first, and the rest is read only when the first
item could be. -/
theorem listed_among_cons {β γ : Type} {x : Parsed β} {f : β → Parsed γ} {k : Nat}
    {more : List LogRecord} (hb : Listed (fun q r => ∃ next, enters b next ∧ Warns next q r) x.effects)
    (hpasses : (∃ c, x.result = .ok c) ↔ passes b)
    (hmore : Listed (WarnsAmong passes enters items (k + 1)) more)
    (hf : ∀ c, (f c).effects = more) :
    Listed (WarnsAmong passes enters (b :: items) k) (x >>= f).effects := by
  cases hx : x.result with
  | error e =>
    have hstop : ¬ passes b := fun h => by
      obtain ⟨c, hc⟩ := hpasses.2 h
      cases hx.symm.trans hc
    rw [Outcome.bind_error hx]
    exact (hb.inside k).congr fun p r =>
      warnsAmong_cons_iff.trans (or_iff_left fun h => hstop h.1)
  | ok c =>
    have hgoes : passes b := hpasses.1 ⟨c, hx⟩
    rw [Outcome.bind_ok hx, hf c]
    refine ((hb.inside k).append hmore ?_).congr fun p r =>
      warnsAmong_cons_iff.trans (or_congr_right (and_iff_right hgoes))
    -- Places in the first item come before those in the items behind it.
    rintro p r p' r' ⟨q, rfl, -⟩ ⟨i, a, next, q', -, -, rfl, -⟩
    exact List.cons_lt_cons_iff.2 (.inl (by omega))

/-- A part whose steps are those into the items of a list. -/
theorem listed_of_among {part : Part} {log : List LogRecord}
    (hstep : ∀ i next, Step part i next ↔ ∃ a, Reached passes items i a ∧ enters a next)
    (h : Listed (WarnsAmong passes enters items 0) log) : Listed (WarnsInside part) log := by
  refine h.congr fun p r => ?_
  constructor
  · rintro ⟨i, next, q, hnext, rfl, hq⟩
    obtain ⟨a, hreached, henters⟩ := (hstep i next).1 hnext
    exact ⟨i, a, next, q, hreached, henters, by rw [Nat.zero_add], hq⟩
  · rintro ⟨i, a, next, q, hreached, henters, rfl, hq⟩
    exact ⟨i, next, q, (hstep i next).2 ⟨a, hreached, henters⟩, by rw [Nat.zero_add], hq⟩

theorem listed_enters {part : Part} {log : List LogRecord} (h : Listed (Warns part) log) :
    Listed (fun q r => ∃ next, next = part ∧ Warns next q r) log :=
  h.congr fun p r => by simp

end

/-! ## Operands -/

theorem find?_of_reached {es : Entries} {i : Nat} {w : Value}
    (h : Reached (·.1 ≠ wheresKey) es i (wheresKey, w)) : Entries.find? wheresKey es = some w := by
  induction es generalizing i with
  | nil => nomatch h.item
  | cons e es ih =>
    rcases reached_cons_iff.1 h with ⟨-, rfl⟩ | ⟨j, -, hkey, h⟩
    · rw [Entries.find?, if_pos rfl]
    · rw [Entries.find?, if_neg hkey]
      exact ih h

section
variable {field : String} {verb : Verb} {es : Entries} {log : List LogRecord}

/-- Entries in which no sub-tree is read. -/
theorem listed_closed (h : Opens field es verb → Entries.find? wheresKey es = none) :
    Listed (WarnsInside (.payload field verb (.object es))) [] := by
  refine listed_leaf fun i next hstep => ?_
  cases hstep with
  | wheres hopens hw => cases (find?_of_reached hw).symm.trans (h hopens)

/-- Entries whose sub-tree is read. -/
theorem listed_open (hopens : Opens field es verb)
    (h : Listed (WarnsAmong (·.1 ≠ wheresKey) (fun e next => e.1 = wheresKey ∧ next = .tree e.2) es 0)
      log) : Listed (WarnsInside (.payload field verb (.object es))) log := by
  refine listed_of_among (fun i next => ?_) h
  constructor
  · intro hstep
    cases hstep with
    | wheres _ hw => exact ⟨_, hw, rfl, rfl⟩
  · rintro ⟨⟨key, w⟩, hw, hkey, rfl⟩
    obtain rfl : key = wheresKey := hkey
    exact .wheres hopens hw

end

end Reading

/-! ## The log of a reading -/

namespace Parse

open Grammar Reading

section
variable {α β : Type}

/-- What logs nothing after a reading leaves the log as it is. -/
theorem effects_then (x : Parsed α) {f : α → Parsed β} (h : ∀ a, (f a).effects = []) :
    (x >>= f).effects = x.effects := by
  cases hx : x.result with
  | error e => rw [Outcome.bind_error hx]
  | ok a => rw [Outcome.bind_ok hx, h, List.append_nil]

variable {r : Except Error α} (f : α → Parsed β)

theorem effects_check_ok {a : α} (h : r = .ok a) : (Outcome.ofExcept r >>= f).effects = (f a).effects := by
  have hx : (Outcome.ofExcept r : Parsed α).result = .ok a := h
  rw [Outcome.bind_ok hx]
  exact List.nil_append _

theorem effects_check_error {e : Error} (h : r = .error e) : (Outcome.ofExcept r >>= f).effects = [] := by
  have hx : (Outcome.ofExcept r : Parsed α).result = .error e := h
  rw [Outcome.bind_error hx]
  rfl

end

-- One theorem for each function of the reader, by recursion on the value that it reads. Whether an
-- item passes is said by the grammar, which the reader accepts exactly.
mutual

/-- Reading a value as a tree logs exactly the warnings that are due in it. -/
theorem listed_tree? (v : Value) : Listed (Warns (.tree v)) (tree? v).effects := by
  cases v with
  | object es =>
    match es with
    | [] =>
      unfold tree?
      exact listed_choice (by simp [Entries.keys]) (listed_leaf nofun)
    | (key, v) :: rest =>
      unfold tree?
      dsimp only
      split
      case isTrue hnone =>
        have hkey : ¬ (key = "and" ∨ key = "or") := fun h => by
          simp [isConnective_iff.2 h] at hnone
        match rest with
        | [] =>
          rw [effects_then _ fun _ => rfl]
          obtain ⟨hand, hor⟩ := not_or.1 hkey
          refine listed_of_inside (fun m hm honored ignored h => ?_)
            (listed_single (.only hand hor) Step.of_tree (listed_entry key v))
          cases hm
          exact hkey (h.only key List.mem_cons_self)
        | _ :: _ => exact listed_refused (fun h => hkey (h key List.mem_cons_self)) nofun
      case isFalse hsome =>
        split
        case isTrue hmixed =>
          refine listed_refused (fun h => ?_) fun field w hone => ?_
          · have hall : (key :: Entries.keys rest).all isConnective = true :=
              all_isConnective_iff.2 h
            rw [hall] at hmixed
            cases hmixed
          · cases hone
            simpa [Entries.keys, isConnective_iff] using hsome
        case isFalse hall =>
          have hconnectives : ∀ k ∈ key :: Entries.keys rest, k = "and" ∨ k = "or" :=
            all_isConnective_iff.1 (by simpa using hall)
          obtain ⟨hkey, hrest⟩ := List.forall_mem_cons.1 hconnectives
          rw [Outcome.bind_ok (Outcome.result_perform _)]
          refine listed_choice hconnectives ?_
          rcases hkey with rfl | rfl
          · rw [if_pos rfl, effects_then _ fun _ => rfl]
            exact listed_single (.all rfl hrest) Step.of_tree (listed_conditions "and" v)
          · rw [if_neg (by decide), effects_then _ fun _ => rfl]
            exact listed_single (.any rfl hrest) Step.of_tree (listed_branches v)
  | tree | condition =>
    unfold tree?
    exact listed_of_inside nofun (listed_shut rfl)
  | _ =>
    unfold tree?
    split <;> exact listed_of_inside nofun (listed_shut rfl)
termination_by structural v

theorem listed_condition (v : Value) : Listed (Warns (.condition v)) (condition v).effects := by
  refine listed_of_inside nofun ?_
  cases v with
  | object es =>
    match es with
    | [(field, operand)] =>
      unfold condition
      refine listed_single .condition (fun h => ?_) (listed_entry field operand)
      cases h
      rfl
    | [] | _ :: _ :: _ =>
      unfold condition
      exact listed_shut rfl
  | _ =>
    unfold condition
    exact listed_shut rfl
termination_by structural v

theorem listed_entry (field : String) (v : Value) :
    Listed (Warns (.operand field v)) (entry field v).effects := by
  refine listed_of_inside nofun ?_
  by_cases hfield : field = multiMatchField
  · have hlog : (entry field v).effects = [] := by
      subst hfield
      cases v <;> simp [entry, multiMatch]
    rw [hlog]
    refine listed_leaf fun i next h => ?_
    cases h with
    | verb hne => exact hne hfield
  · cases v with
    | object es =>
      match es with
      | [(word, v)] =>
        unfold entry
        rw [if_neg hfield]
        dsimp only
        cases hword : Verb.ofWord? word with
        | none =>
          refine listed_leaf fun i next h => ?_
          cases h with
          | verb _ hverb =>
            rw [← hverb, Verb.ofWord?_word] at hword
            cases hword
        | some verb =>
          refine listed_single (.verb hfield (Verb.word_of_ofWord? hword)) (fun h => ?_)
            (listed_underVerb field verb v)
          cases h
          rfl
      | [] | _ :: _ :: _ =>
        unfold entry
        rw [if_neg hfield]
        exact listed_shut rfl
    | _ =>
      unfold entry
      dsimp only
      rw [if_neg hfield]
      exact listed_shut rfl
termination_by structural v

theorem listed_underVerb (field : String) (verb : Verb) (v : Value) :
    Listed (Warns (.payload field verb v)) (underVerb field verb v).effects := by
  refine listed_of_inside nofun ?_
  cases verb with
  | compare op =>
    unfold underVerb
    refine listed_leaf fun i next h => ?_
    cases h with
    | wheres hopens => nomatch hopens
  | group =>
    cases v with
    | object es =>
      unfold underVerb
      cases hread : Payload.readEntries field Verb.group.word Payload.group es with
      | error e =>
        rw [effects_check_error _ rfl]
        refine listed_closed fun _ => ?_
        cases hw : Entries.find? wheresKey es with
        | none => rfl
        | some w =>
          cases hread.symm.trans (readEntries_eq_ok_iff.2 ((group_eq_valid_iff (p := ⟨w⟩)).2 hw))
      | ok payload =>
        rw [effects_check_ok _ rfl]
        cases hclause : Clause.ofWord? field with
        | none =>
          refine listed_closed fun hopens => ?_
          cases hopens with
          | group h =>
            rw [← h, Clause.ofWord?_word] at hclause
            cases hclause
        | some clause =>
          rw [effects_then _ fun _ => rfl]
          exact listed_open (.group (Clause.word_of_ofWord? hclause)) (listed_wheres es 0)
    | _ =>
      unfold underVerb
      exact listed_shut rfl
  | nested negated =>
    cases v with
    | object es =>
      unfold underVerb
      cases hread : Payload.readEntries field (Verb.nested negated).word Payload.nested es with
      | error e =>
        rw [effects_check_error _ rfl]
        refine listed_closed fun hopens => ?_
        cases hopens with
        | @nested _ mode hmode =>
          cases hw : Entries.find? wheresKey es with
          | none => rfl
          | some w =>
            cases hread.symm.trans
              (readEntries_eq_ok_iff.2 ((nested_eq_valid_iff (p := ⟨w, mode⟩)).2 ⟨hw, hmode⟩))
      | ok payload =>
        rw [effects_check_ok _ rfl, effects_then _ fun _ => rfl]
        obtain ⟨-, hmode⟩ := nested_eq_valid_iff.1 (readEntries_eq_ok_iff.1 hread)
        exact listed_open (.nested hmode) (listed_wheres es 0)
    | _ =>
      unfold underVerb
      exact listed_shut rfl
  | innerNested =>
    cases v with
    | object es =>
      unfold underVerb
      cases hread : Payload.readEntries field Verb.innerNested.word Payload.innerNested es with
      | error e =>
        rw [effects_check_error _ rfl]
        refine listed_closed fun hopens => ?_
        cases hopens with
        | @innerNested mode ignore hmode hignore =>
          cases hread.symm.trans (readEntries_eq_ok_iff.2
            ((innerNested_eq_valid_iff (p := ⟨_, _, mode, ignore⟩)).2 ⟨rfl, rfl, hmode, hignore⟩))
      | ok payload =>
        obtain ⟨-, -, hmode, hignore⟩ := innerNested_eq_valid_iff.1 (readEntries_eq_ok_iff.1 hread)
        rw [effects_check_ok _ rfl, effects_then _ fun _ => effects_then _ fun _ => rfl]
        exact listed_open (.innerNested hmode hignore) (listed_wheres es 0)
    | _ =>
      unfold underVerb
      exact listed_shut rfl
termination_by structural v

theorem listed_wheres (es : Entries) (k : Nat) :
    Listed (WarnsAmong (·.1 ≠ wheresKey) (fun e next => e.1 = wheresKey ∧ next = .tree e.2) es k)
      (wheres es).effects := by
  match es with
  | [] =>
    unfold wheres
    exact listed_among_nil k
  | (key, v) :: rest =>
    unfold wheres
    split
    case isTrue hkey =>
      exact ((listed_tree? v).inside k).congr fun p r => warnsAmong_cons_iff.trans (by simp [hkey])
    case isFalse hkey =>
      exact (listed_wheres rest (k + 1)).congr fun p r => warnsAmong_cons_iff.trans (by simp [hkey])
termination_by structural es

theorem listed_conditions (connective : String) (v : Value) :
    Listed (Warns (.conditions v)) (conditions connective v).effects := by
  refine listed_of_inside nofun ?_
  cases v with
  | list vs =>
    unfold conditions
    exact listed_of_among (step_conditions_iff (.inl rfl)) (listed_conditionList vs 0)
  | tuple vs =>
    unfold conditions
    exact listed_of_among (step_conditions_iff (.inr rfl)) (listed_conditionList vs 0)
  | _ =>
    unfold conditions
    exact listed_shut rfl
termination_by structural v

theorem listed_conditionList (vs : List Value) (k : Nat) :
    Listed (WarnsAmong (∃ c, IsCondition · c) (fun v next => next = .condition v) vs k)
      (conditionList vs).effects := by
  match vs with
  | [] =>
    unfold conditionList
    exact listed_among_nil k
  | v :: vs =>
    unfold conditionList
    exact listed_among_cons (listed_enters (listed_condition v)) (exists_congr (condition_ok_iff v))
      (listed_conditionList vs (k + 1)) fun c => effects_then _ fun _ => rfl
termination_by structural vs

theorem listed_branches (v : Value) : Listed (Warns (.branches v)) (branches v).effects := by
  refine listed_of_inside nofun ?_
  cases v with
  | list vs =>
    unfold branches
    exact listed_of_among (step_branches_iff (.inl rfl)) (listed_branchList vs 0)
  | tuple vs =>
    unfold branches
    exact listed_of_among (step_branches_iff (.inr rfl)) (listed_branchList vs 0)
  | _ =>
    unfold branches
    exact listed_shut rfl
termination_by structural v

theorem listed_branchList (vs : List Value) (k : Nat) :
    Listed (WarnsAmong (∃ cs, IsBranch · cs) (fun v next => next = .branch v) vs k)
      (branchList vs).effects := by
  match vs with
  | [] =>
    unfold branchList
    exact listed_among_nil k
  | v :: vs =>
    unfold branchList
    exact listed_among_cons (listed_enters (listed_branch v)) (exists_congr (branch_ok_iff v))
      (listed_branchList vs (k + 1)) fun b => effects_then _ fun _ => rfl
termination_by structural vs

theorem listed_branch (v : Value) : Listed (Warns (.branch v)) (branch v).effects := by
  refine listed_of_inside nofun ?_
  cases v with
  | object es =>
    unfold branch
    exact listed_of_among step_keyed_iff (listed_branchEntries es 0)
  | list vs =>
    unfold branch
    exact listed_of_among (step_bare_iff (.inl rfl)) (listed_conditionList vs 0)
  | tuple vs =>
    unfold branch
    exact listed_of_among (step_bare_iff (.inr rfl)) (listed_conditionList vs 0)
  | _ =>
    unfold branch
    exact listed_shut rfl
termination_by structural v

theorem listed_branchEntries (es : Entries) (k : Nat) :
    Listed (WarnsAmong (fun e => ∃ cs, AreConditions e.2 cs) (fun e next => next = .conditions e.2)
      es k) (branchEntries es).effects := by
  match es with
  | [] =>
    unfold branchEntries
    exact listed_among_nil k
  | (key, v) :: rest =>
    unfold branchEntries
    exact listed_among_cons (listed_enters (listed_conditions key v))
      (exists_congr (conditions_ok_iff key v)) (listed_branchEntries rest (k + 1))
      fun cs => effects_then _ fun _ => rfl
termination_by structural es

end

-- The second condition cannot be read, so the third one is not reached.
example :
    let comments : Value := .object [("comments", .object [("nested", .object
      [("wheres", .object [("or", .list []), ("and", .list [])]), ("score_mode", .str "avg")])])]
    (tree? (.object [("and", .list [comments, .int 5, comments]), ("or", .null)])).effects =
      [ignoredWarning "and" "or", ignoredWarning "or" "and"] := rfl

end Parse

end SearchRequest
