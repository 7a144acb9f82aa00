import SearchRequest.Proofs.Escaped
import SearchRequest.Proofs.KeywordForm
/-
The query text of `like` and `not_like` as the engine reads it. Blanks separate words, a word with a
colon is a term on a field, and its pattern may hold wildcards; characters with a meaning lose it
after a backslash.

No operand puts a character with a meaning into the text. Of the five blanks only the space is
escaped, so a tab, a line feed, a carriage return or an ideographic space in the operand ends the
term. Without these four the text of `like` is one term on the field with the operand between two
wildcards, and `not_like` denies exactly that term; with one of them it never is
(`like_is_one_term`, `tab_ends_term`).
-/
namespace SearchRequest

namespace QueryText

/-! ## Words -/

/-- The characters that separate words. -/
def blanks : List Char := [' ', '\t', '\n', '\r', '\u3000']

/-- The blanks that are not escaped. -/
def bareBlanks : List Char := ['\t', '\n', '\r', '\u3000']

/-- A character without a meaning between words or in them. -/
def isPlain (c : Char) : Bool :=
  !blanks.contains c && !reserved.contains c && !removed.contains c

namespace Piece

/-- Whether a piece separates words. -/
def separates : Piece → Bool
  | single c => blanks.contains c
  | pair _ => false

/-- Whether a piece has a meaning in the query language. -/
def isSyntax : Piece → Bool
  | single c => reserved.contains c || removed.contains c
  | pair _ => false

/-- Whether a piece continues the word that it stands in. -/
def continues (p : Piece) : Bool :=
  !p.separates && p != single '(' && p != single ')'

end Piece

/-- A part of a query string between blanks. -/
inductive Token
  | word (ps : List Piece)
  | opening
  | closing
  deriving DecidableEq

/-- A word that ends here, if it has begun. -/
def ended : List Piece → List Token
  | [] => []
  | p :: ps => [.word (p :: ps)]

/-- The tokens of pieces behind the beginning of a word. -/
def tokens (begun : List Piece) : List Piece → List Token
  | [] => ended begun
  | p :: ps =>
    if p.separates then ended begun ++ tokens [] ps
    else if p = .single '(' then ended begun ++ .opening :: tokens [] ps
    else if p = .single ')' then ended begun ++ .closing :: tokens [] ps
    else tokens (begun ++ [p]) ps

/-! ## Terms -/

/-- A part of a pattern. -/
inductive Wildcard
  | anyText
  | anyChar
  | exactly (c : Char)
  deriving DecidableEq

/-- A field that is matched with a pattern. -/
structure Term where
  field : String
  pattern : List Wildcard
  deriving DecidableEq

/-- What a query string asks for that is about one term. -/
inductive Demand
  | holds (t : Term)
  | lacks (t : Term)
  deriving DecidableEq

/-- The part of a pattern that a piece is, unless it has another meaning. -/
def wildcard? : Piece → Option Wildcard
  | .single '*' => some .anyText
  | .single '?' => some .anyChar
  | p => if p.isSyntax || p.separates then none else some (.exactly p.char)

/-- The term that a word is: the name of a field, a colon and a pattern. -/
def term? (name : List Char) : List Piece → Option Term
  | [] => none
  | p :: ps =>
    if p = .single ':' then (ps.mapM wildcard?).map fun pattern => ⟨String.ofList name, pattern⟩
    else if p.isSyntax then none
    else term? (name ++ [p.char]) ps

/-- The word that denies what follows. -/
def denial : List Piece := ['N', 'O', 'T'].map .single

/-- What tokens ask for, if they are about one term. -/
def demandOf? : List Token → Option Demand
  | [.word w] => (term? [] w).map .holds
  | [.opening, .word w, .word w', .closing] =>
    if w = denial then (term? [] w').map .lacks else none
  | _ => none

/-- What a query string asks for, if it is about one term. -/
def demand? (s : String) : Option Demand :=
  demandOf? (tokens [] (pieces s.toList))

/-- The term on a field whose pattern is a text between two wildcards. -/
def within (field text : String) : Term where
  field := field
  pattern := .anyText :: (keptChars text.toList).map .exactly ++ [.anyText]

/-- A text has no blank that is not escaped. -/
def Unbroken (s : String) : Prop :=
  ∀ c ∈ s.toList, c ∉ bareBlanks

instance (s : String) : Decidable (Unbroken s) :=
  List.decidableBAll (· ∉ bareBlanks) s.toList

/-! ## Reading words -/

theorem isPlain_iff {c : Char} :
    isPlain c = true ↔ c ∉ blanks ∧ c ∉ reserved ∧ c ∉ removed := by
  simp [isPlain, and_assoc]

/-- Letters, digits, dots and underscores have no meaning. -/
theorem isPlain_of_name {c : Char} (h : c.isAlphanum = true ∨ c = '.' ∨ c = '_') :
    isPlain c = true := by
  have hnames : ∀ c ∈ blanks ++ reserved ++ removed, ¬(c.isAlphanum = true ∨ c = '.' ∨ c = '_') := by
    simp [blanks, reserved, removed]
  refine isPlain_iff.2 ⟨fun hc => ?_, fun hc => ?_, fun hc => ?_⟩
  all_goals exact hnames c (by simp [hc]) h

namespace Piece

/-- A character written as a piece separates words when it is a blank that is not escaped. -/
theorem separates_ofChar {c : Char} : (ofChar c).separates = true ↔ c ∈ bareBlanks := by
  have hbare : ∀ c ∈ bareBlanks, c ∈ blanks ∧ c ∉ reserved := by
    simp [bareBlanks, blanks, reserved]
  have hblank : ∀ c ∈ blanks, c ∉ reserved → c ∈ bareBlanks := by
    simp [bareBlanks, blanks, reserved]
  by_cases h : c ∈ reserved
  · rw [ofChar_of_mem h]
    constructor
    · intro hc
      cases hc
    · intro hc
      exact absurd h (hbare c hc).2
  · rw [ofChar_of_notMem h, separates, List.contains_iff_mem]
    exact ⟨fun hc => hblank c hc h, fun hc => (hbare c hc).1⟩

theorem ofChar_ne_single {c d : Char} (h : d ∈ reserved) : ofChar c ≠ .single d := by
  intro heq
  by_cases hc : c ∈ reserved
  · rw [ofChar_of_mem hc] at heq
    cases heq
  · rw [ofChar_of_notMem hc] at heq
    cases heq
    exact hc h

theorem continues_ofChar {c : Char} (h : c ∉ bareBlanks) : (ofChar c).continues = true := by
  have hblank : (ofChar c).separates = false := by
    simpa using mt separates_ofChar.1 h
  have hopening : ofChar c ≠ .single '(' := ofChar_ne_single (by decide)
  have hclosing : ofChar c ≠ .single ')' := ofChar_ne_single (by decide)
  simp [continues, hblank, hopening, hclosing]

theorem continues_single {c : Char} (h : isPlain c = true) : (single c).continues = true := by
  obtain ⟨hblank, hreserved, -⟩ := isPlain_iff.1 h
  have hopening : c ≠ '(' := by
    rintro rfl
    exact hreserved (by decide)
  have hclosing : c ≠ ')' := by
    rintro rfl
    exact hreserved (by decide)
  simp [continues, separates, hblank, hopening, hclosing]

theorem isSyntax_single {c : Char} (h : isPlain c = true) : (single c).isSyntax = false := by
  obtain ⟨-, hreserved, hremoved⟩ := isPlain_iff.1 h
  simp [isSyntax, hreserved, hremoved]

end Piece

theorem tokens_continues {p : Piece} (h : p.continues = true) (begun ps : List Piece) :
    tokens begun (p :: ps) = tokens (begun ++ [p]) ps := by
  simp only [Piece.continues, Bool.and_eq_true, Bool.not_eq_true', bne_iff_ne] at h
  obtain ⟨⟨hblank, hopening⟩, hclosing⟩ := h
  rw [tokens, if_neg (by simp [hblank]), if_neg hopening, if_neg hclosing]

theorem tokens_ends {p : Piece} (h : p.continues = false) (begun ps : List Piece) :
    ∃ ts, tokens begun (p :: ps) = ended begun ++ (ts ++ tokens [] ps) := by
  rw [tokens]
  split
  · exact ⟨[], rfl⟩
  · split
    · exact ⟨[.opening], rfl⟩
    · split
      · exact ⟨[.closing], rfl⟩
      · simp_all [Piece.continues]

/-- Pieces that continue a word are read into it. -/
theorem tokens_append {ps : List Piece} (h : ∀ p ∈ ps, p.continues = true) (begun qs : List Piece) :
    tokens begun (ps ++ qs) = tokens (begun ++ ps) qs := by
  induction ps generalizing begun with
  | nil => simp
  | cons p ps ih =>
    obtain ⟨hp, hps⟩ := List.forall_mem_cons.1 h
    rw [List.cons_append, tokens_continues hp, ih hps, List.append_assoc, List.singleton_append]

theorem ended_of_ne_nil {ps : List Piece} (h : ps ≠ []) : ended ps = [.word ps] := by
  cases ps with
  | nil => exact absurd rfl h
  | cons p ps => rfl

/-- A word that has begun is among the tokens. -/
theorem exists_word {begun : List Piece} (h : begun ≠ []) (ps : List Piece) :
    ∃ w, .word w ∈ tokens begun ps := by
  induction ps generalizing begun with
  | nil => exact ⟨begun, by simp [tokens, ended_of_ne_nil h]⟩
  | cons p ps ih =>
    cases hp : p.continues with
    | true =>
      rw [tokens_continues hp]
      exact ih (by simp)
    | false =>
      obtain ⟨ts, hts⟩ := tokens_ends hp begun ps
      rw [hts, ended_of_ne_nil h]
      exact ⟨begun, List.mem_append_left _ (List.mem_singleton_self _)⟩

/-- A piece that continues words is in one of them. -/
theorem exists_word_of_mem {p : Piece} {ps : List Piece} (hp : p.continues = true) (h : p ∈ ps)
    (begun : List Piece) : ∃ w, .word w ∈ tokens begun ps := by
  induction ps generalizing begun with
  | nil => cases h
  | cons q ps ih =>
    cases hq : q.continues with
    | true =>
      rw [tokens_continues hq]
      exact exists_word (by simp) ps
    | false =>
      have hmem : p ∈ ps := by
        rcases List.mem_cons.1 h with rfl | h
        · rw [hp] at hq
          cases hq
        · exact h
      obtain ⟨ts, hts⟩ := tokens_ends hq begun ps
      obtain ⟨w, hw⟩ := ih hmem []
      rw [hts]
      exact ⟨w, List.mem_append_right _ (List.mem_append_right _ hw)⟩

/-- A blank ends the word that has begun, and what follows is in another one. -/
theorem tokens_of_blank {begun ps qs : List Piece} (hbegun : begun ≠ [])
    (hps : ∀ p ∈ ps, p.separates = false → p.continues = true)
    (hblank : ∃ p ∈ ps, p.separates = true) (hqs : ∃ q ∈ qs, q.continues = true) :
    ∃ w ts w', tokens begun (ps ++ qs) = .word w :: ts ∧ .word w' ∈ ts := by
  induction ps generalizing begun with
  | nil =>
    obtain ⟨p, hp, -⟩ := hblank
    cases hp
  | cons p ps ih =>
    obtain ⟨hp, hps⟩ := List.forall_mem_cons.1 hps
    by_cases h : p.separates = true
    · obtain ⟨q, hq, hcontinues⟩ := hqs
      obtain ⟨w', hw'⟩ := exists_word_of_mem hcontinues (List.mem_append_right ps hq) []
      refine ⟨begun, tokens [] (ps ++ qs), w', ?_, hw'⟩
      rw [List.cons_append, tokens, if_pos h, ended_of_ne_nil hbegun]
      rfl
    · have hrest : ∃ p ∈ ps, p.separates = true := by
        obtain ⟨p', hp', hsep⟩ := hblank
        rcases List.mem_cons.1 hp' with rfl | hp'
        · exact absurd hsep h
        · exact ⟨p', hp', hsep⟩
      rw [List.cons_append, tokens_continues (hp (by simpa using h))]
      exact ih (by simp) hps hrest

/-! ## The query text of a field and an operand -/

/-- The field, the colon and the wildcard in front of the operand. -/
def head (field : String) : List Piece :=
  field.toList.map .single ++ [.single ':', .single '*']

/-- The pieces of an operand. -/
def inside (text : String) : List Piece :=
  (keptChars text.toList).map .ofChar

theorem pieces_plain {cs : List Char} (h : ∀ c ∈ cs, isPlain c = true) (rest : List Char) :
    pieces (cs ++ rest) = cs.map .single ++ pieces rest := by
  induction cs with
  | nil => rfl
  | cons c cs ih =>
    obtain ⟨hc, hcs⟩ := List.forall_mem_cons.1 h
    have hne : c ≠ '\\' := by
      rintro rfl
      exact absurd hc (by decide)
    rw [List.cons_append, pieces_single hne, ih hcs, List.map_cons, List.cons_append]

theorem pieces_contains {field : String} (h : ∀ c ∈ field.toList, isPlain c = true) (text : String)
    (rest : List Char) :
    pieces ((contains field text).toList ++ rest) =
      head field ++ (inside text ++ .single '*' :: pieces rest) := by
  have htext : (contains field text).toList ++ rest =
      field.toList ++ (':' :: '*' :: (escapeChars text.toList ++ '*' :: rest)) := by
    simp [contains, escape]
  have hcolon : ':' ≠ '\\' := by decide
  have hstar : '*' ≠ '\\' := by decide
  rw [htext, pieces_plain h, pieces_single hcolon, pieces_single hstar, pieces_escapeChars_append,
    pieces_single hstar]
  simp [head, inside]

theorem continues_head {field : String} (h : ∀ c ∈ field.toList, isPlain c = true) :
    ∀ p ∈ head field, p.continues = true := by
  intro p hp
  rcases List.mem_append.1 hp with hp | hp
  · obtain ⟨c, hc, rfl⟩ := List.mem_map.1 hp
    exact Piece.continues_single (h c hc)
  · have hmarks : ∀ p ∈ [Piece.single ':', .single '*'], p.continues = true := by decide
    exact hmarks p hp

theorem forall_separates_inside {text : String} :
    (∀ p ∈ inside text, p.separates = false) ↔ Unbroken text := by
  have hbare : ∀ c ∈ bareBlanks, c ∉ removed := by
    simp [bareBlanks, removed]
  constructor
  · intro h c hc hblank
    have hkept : c ∈ keptChars text.toList :=
      List.mem_filter.2 ⟨hc, by simpa using hbare c hblank⟩
    have hsep := h _ (List.mem_map_of_mem hkept)
    rw [Piece.separates_ofChar.2 hblank] at hsep
    cases hsep
  · intro h p hp
    obtain ⟨c, hc, rfl⟩ := List.mem_map.1 hp
    have hc' := h c (List.mem_filter.1 hc).1
    simpa using mt Piece.separates_ofChar.1 hc'

theorem continues_inside {text : String} :
    ∀ p ∈ inside text, p.separates = false → p.continues = true := by
  intro p hp hsep
  obtain ⟨c, -, rfl⟩ := List.mem_map.1 hp
  apply Piece.continues_ofChar
  intro hblank
  rw [Piece.separates_ofChar.2 hblank] at hsep
  cases hsep

/-- A character of an operand is matched as it is. -/
theorem wildcard?_ofChar {c : Char} (hblank : c ∉ bareBlanks) (hremoved : c ∉ removed) :
    wildcard? (.ofChar c) = some (.exactly c) := by
  by_cases h : c ∈ reserved
  · rw [Piece.ofChar_of_mem h]
    rfl
  · have hof := Piece.ofChar_of_notMem h
    have hmeaning : (Piece.single c).isSyntax = false := by simp [Piece.isSyntax, h, hremoved]
    have hsep : (Piece.single c).separates = false := by
      rw [← hof]
      simpa using mt Piece.separates_ofChar.1 hblank
    rw [hof]
    unfold wildcard?
    split
    · rename_i heq
      cases heq
      exact absurd (by decide) h
    · rename_i heq
      cases heq
      exact absurd (by decide) h
    · rw [hmeaning, hsep]
      rfl

theorem mapM_ofChar {cs : List Char} (h : ∀ c ∈ cs, c ∉ bareBlanks ∧ c ∉ removed)
    (ps : List Piece) :
    (cs.map Piece.ofChar ++ ps).mapM wildcard? =
      (ps.mapM wildcard?).map (cs.map .exactly ++ ·) := by
  induction cs with
  | nil => simp
  | cons c cs ih =>
    obtain ⟨⟨hblank, hremoved⟩, hcs⟩ := List.forall_mem_cons.1 h
    rw [List.map_cons, List.cons_append, List.mapM_cons, wildcard?_ofChar hblank hremoved, ih hcs]
    cases ps.mapM wildcard? <;> rfl

/-- The name in front of a colon is that of the field. -/
theorem term?_plain {cs : List Char} (h : ∀ c ∈ cs, isPlain c = true) (name : List Char)
    (ps : List Piece) :
    term? name (cs.map .single ++ .single ':' :: ps) =
      (ps.mapM wildcard?).map fun pattern => ⟨String.ofList (name ++ cs), pattern⟩ := by
  induction cs generalizing name with
  | nil => simp [term?]
  | cons c cs ih =>
    obtain ⟨hc, hcs⟩ := List.forall_mem_cons.1 h
    have hmeaning := Piece.isSyntax_single hc
    have hcolon : Piece.single c ≠ .single ':' := by
      rintro ⟨⟩
      exact absurd hc (by decide)
    rw [List.map_cons, List.cons_append, term?, if_neg hcolon, if_neg (by simp [hmeaning]), ih hcs,
      List.append_assoc]
    rfl

/-- All of the pieces of a query text are one word, or a blank of the operand ends the word and
there is another one behind it. -/
theorem tokens_contains {field : String} (hfield : ∀ c ∈ field.toList, isPlain c = true)
    (text : String) (rest : List Char) :
    let ps := pieces ((contains field text).toList ++ rest)
    (Unbroken text → tokens [] ps =
      tokens (head field ++ (inside text ++ [.single '*'])) (pieces rest)) ∧
    (¬ Unbroken text → ∃ w ts w', tokens [] ps = .word w :: ts ∧ .word w' ∈ ts) := by
  intro ps
  have hps : ps = head field ++ (inside text ++ .single '*' :: pieces rest) :=
    pieces_contains hfield text rest
  have hhead : tokens [] ps = tokens (head field) (inside text ++ .single '*' :: pieces rest) := by
    rw [hps, tokens_append (continues_head hfield), List.nil_append]
  have hstar : (Piece.single '*').continues = true := by decide
  rw [hhead]
  constructor
  · intro h
    have hinside : ∀ p ∈ inside text, p.continues = true :=
      fun p hp => continues_inside p hp (forall_separates_inside.2 h p hp)
    rw [tokens_append hinside, tokens_continues hstar, List.append_assoc]
  · intro h
    have hblank : ∃ p ∈ inside text, p.separates = true := by
      by_contra hnone
      refine h (forall_separates_inside.1 fun p hp => ?_)
      by_contra hsep
      exact hnone ⟨p, hp, by simpa using hsep⟩
    exact tokens_of_blank (by simp [head]) continues_inside hblank ⟨_, List.mem_cons_self, hstar⟩

/-- The word of a field and an operand is the term with the operand between two wildcards. -/
theorem term?_within {field text : String} (hfield : ∀ c ∈ field.toList, isPlain c = true)
    (h : Unbroken text) :
    term? [] (head field ++ (inside text ++ [.single '*'])) = some (within field text) := by
  have hkept : ∀ c ∈ keptChars text.toList, c ∉ bareBlanks ∧ c ∉ removed := by
    intro c hc
    obtain ⟨hmem, hremoved⟩ := List.mem_filter.1 hc
    exact ⟨h c hmem, by simpa using hremoved⟩
  have hpattern : ((.single '*' : Piece) :: (inside text ++ [.single '*'])).mapM wildcard? =
      some (within field text).pattern := by
    rw [List.mapM_cons, inside, mapM_ofChar hkept]
    rfl
  rw [head, List.append_assoc, List.cons_append, List.singleton_append, term?_plain hfield, hpattern]
  simp [within]

theorem demandOf?_two_words {w w' : List Piece} {ts : List Token} (h : .word w' ∈ ts) :
    demandOf? (.word w :: ts) = none := by
  cases ts with
  | nil => cases h
  | cons t ts => rfl

theorem demandOf?_denied_two_words {w w' : List Piece} {ts : List Token} (h : .word w' ∈ ts) :
    demandOf? (.opening :: .word denial :: .word w :: ts) = none := by
  cases ts with
  | nil => cases h
  | cons t ts =>
    cases ts with
    | nil =>
      rw [← List.mem_singleton.1 h]
      rfl
    | cons => cases t <;> rfl

/-- The query text of `like` is one term exactly when no blank of the operand is left bare. -/
theorem demand?_contains_iff {field : String} (hfield : ∀ c ∈ field.toList, isPlain c = true)
    (text : String) :
    demand? (contains field text) = some (.holds (within field text)) ↔ Unbroken text := by
  have htokens := tokens_contains hfield text []
  rw [List.append_nil] at htokens
  constructor
  · intro h
    by_contra hbroken
    obtain ⟨w, ts, w', heq, hw'⟩ := htokens.2 hbroken
    rw [demand?, heq, demandOf?_two_words hw'] at h
    cases h
  · intro h
    have hword : head field ++ (inside text ++ [.single '*']) ≠ [] := by simp [head]
    rw [demand?, htokens.1 h, pieces, tokens, ended_of_ne_nil hword, demandOf?, term?_within hfield h]
    rfl

/-- The query text of `not_like` denies that term, under the same condition. -/
theorem demand?_lacks_iff {field : String} (hfield : ∀ c ∈ field.toList, isPlain c = true)
    (text : String) :
    demand? (lacks field text) = some (.lacks (within field text)) ↔ Unbroken text := by
  have htokens := tokens_contains hfield text [')']
  have hlacks : tokens [] (pieces (lacks field text).toList) =
      .opening :: .word denial :: tokens [] (pieces ((contains field text).toList ++ [')'])) := by
    simp only [lacks, String.toList_append]
    rfl
  constructor
  · intro h
    by_contra hbroken
    obtain ⟨w, ts, w', heq, hw'⟩ := htokens.2 hbroken
    rw [demand?, hlacks, heq, demandOf?_denied_two_words hw'] at h
    cases h
  · intro h
    have hword : head field ++ (inside text ++ [.single '*']) ≠ [] := by simp [head]
    have hclosing : tokens (head field ++ (inside text ++ [.single '*'])) (pieces [')']) =
        [.word (head field ++ (inside text ++ [.single '*'])), .closing] := by
      have hended := ended_of_ne_nil hword
      exact congrArg (· ++ [.closing]) hended
    rw [demand?, hlacks, htokens.1 h, hclosing, demandOf?, if_pos rfl, term?_within hfield h]
    rfl

end QueryText

namespace Condition

open QueryText (Piece pieces escape isPlain Unbroken Demand demand? within)

/-- The document of a search by a query text that asks for the demand exactly when `p` holds. -/
def SearchesFor (demand : Demand) (p : Prop) (r : Except Error Value) : Prop :=
  ∃ text, r = .ok (searched text) ∧ (demand? text = some demand ↔ p)

/-- **A search for an operand is one term.** On a field whose characters have no meaning in the
query language, such as letters, digits, dots and underscores, no operand puts a character with a
meaning into the query text, and it puts a blank there exactly when it holds one that is not
escaped. When it holds none, the text of `like` is one term, with the operand between two wildcards,
and `not_like` denies exactly that term; otherwise neither is. -/
theorem like_is_one_term (env : Environment) (scope : Option String) (field : String)
    (operand : Value) (hfield : ∀ c ∈ (Field.qualify field scope).toList, isPlain c = true) :
    let path := Field.qualify field scope
    let text := operand.asText
    (∀ p ∈ pieces (escape text).toList, p.isSyntax = false) ∧
    ((∀ p ∈ pieces (escape text).toList, p.separates = false) ↔ Unbroken text) ∧
    Compares env scope field .like operand
      (SearchesFor (.holds (within path text)) (Unbroken text)) ∧
    Compares env scope field .notLike operand
      (SearchesFor (.lacks (within path text)) (Unbroken text)) := by
  intro path text
  refine ⟨?_, ?_, ?_, ?_⟩
  · intro p hp
    cases p with
    | pair c => rfl
    | single c =>
      obtain ⟨hreserved, hremoved⟩ := QueryText.notMem_of_single hp
      simp [Piece.isSyntax, hreserved, hremoved]
  · rw [QueryText.pieces_escape]
    exact QueryText.forall_separates_inside
  · apply compares_of
    exact ⟨_, rfl, QueryText.demand?_contains_iff hfield text⟩
  · apply compares_of
    exact ⟨_, rfl, QueryText.demand?_lacks_iff hfield text⟩

/-- Under a parent path, with an operand of a backslash, blanks, operators and wildcards. -/
theorem like_is_one_term_posts :
    let operand : Value := .str "x\\ OR (b*\"<"
    let notLike : Value := .object [("title_2", .object [("not_like", operand)])]
    (∀ c ∈ (Field.qualify "title_2" (some "posts")).toList, isPlain c = true) ∧
    Unbroken operand.asText ∧
    SearchesFor (.lacks (within "posts.title_2" operand.asText)) (Unbroken operand.asText)
      (Compile.document (Condition.compile {} (some "posts") notLike)).result := by
  intro operand notLike
  have hfield : ∀ c ∈ (Field.qualify "title_2" (some "posts")).toList, isPlain c = true := by
    have hpath : Field.qualify "title_2" (some "posts") = "posts.title_2" := by decide
    have hname : ∀ c ∈ (Field.qualify "title_2" (some "posts")).toList,
        c.isAlphanum = true ∨ c = '.' ∨ c = '_' := by
      simp [hpath]
    exact fun c hc => QueryText.isPlain_of_name (hname c hc)
  refine ⟨hfield, by decide, ?_⟩
  exact (like_is_one_term {} (some "posts") "title_2" operand hfield).2.2.2 notLike rfl

/-- A tab in an operand ends the term, and what stands behind it is a word of its own. -/
theorem tab_ends_term :
    (¬ ∀ operand : Value, ∀ p ∈ pieces (escape operand.asText).toList,
      p.separates = false ∧ p.isSyntax = false) ∧
    (Compile.document (Condition.compile {} none
      (.object [("title", .object [("like", .str "x\ty")])]))).result =
        .ok (searched "title:*x\ty*") ∧
    ¬ ∃ t, demand? "title:*x\ty*" = some (.holds t) := by
  refine ⟨?_, rfl, ?_⟩
  · intro h
    have htab := (h (.str "x\ty") (.single '\t') (by decide)).1
    exact absurd htab (by decide)
  · have hnone : demand? "title:*x\ty*" = none := by decide
    rintro ⟨t, ht⟩
    rw [hnone] at ht
    cases ht

end Condition

end SearchRequest
