import SearchRequest.QueryText
/-
Reading an escaped text back. A query string is read from left to right in pieces: a backslash with
the character after it, or a single character. An escaped text has one piece for each character of
the text that is not left out (`pieces_escapeChars`), and the piece says which character it is, so
escaping loses the angle brackets and nothing else (`escape_decodes`). Runs of backslashes are no
exception, since a backslash is itself written as a pair.
-/
namespace SearchRequest.QueryText

/-- A piece of a query string. -/
inductive Piece
  | single (c : Char)
  /-- A backslash and the character after it. -/
  | pair (c : Char)
  deriving DecidableEq, Repr

namespace Piece

/-- The character that a piece stands for. -/
def char : Piece → Char
  | single c | pair c => c

/-- The characters of a piece. -/
def spelling : Piece → List Char
  | single c => [c]
  | pair c => ['\\', c]

/-- The piece that a character is written as. -/
def ofChar (c : Char) : Piece :=
  if reserved.contains c then pair c else single c

theorem ofChar_of_mem {c : Char} (h : c ∈ reserved) : ofChar c = pair c :=
  if_pos (by simpa using h)

theorem ofChar_of_notMem {c : Char} (h : c ∉ reserved) : ofChar c = single c :=
  if_neg (by simpa using h)

@[simp] theorem char_ofChar (c : Char) : (ofChar c).char = c := by
  unfold ofChar
  split <;> rfl

end Piece

/-- The pieces of a query string. A backslash that ends it is a single character. -/
def pieces : List Char → List Piece
  | '\\' :: c :: cs => .pair c :: pieces cs
  | c :: cs => .single c :: pieces cs
  | [] => []

/-- The text that a query string stands for: every pair is its second character. -/
def unescape (s : String) : String :=
  String.ofList ((pieces s.toList).map Piece.char)

/-- The characters that are not left out. -/
def keptChars (cs : List Char) : List Char :=
  cs.filter fun c => !removed.contains c

/-- A text without the characters that are left out. -/
def kept (s : String) : String :=
  String.ofList (keptChars s.toList)

theorem pieces_pair (c : Char) (cs : List Char) : pieces ('\\' :: c :: cs) = .pair c :: pieces cs := by
  rw [pieces]

theorem pieces_single {c : Char} (h : c ≠ '\\') (cs : List Char) :
    pieces (c :: cs) = .single c :: pieces cs := by
  rw [pieces]
  intro c' cs' hc
  exact absurd hc h

/-- The pieces are all of the query string. -/
theorem spelling_pieces (cs : List Char) : (pieces cs).flatMap Piece.spelling = cs := by
  induction cs using pieces.induct with
  | case1 c cs ih =>
    rw [pieces_pair, List.flatMap_cons, ih]
    rfl
  | case2 c cs hpair ih =>
    rw [pieces, List.flatMap_cons, ih]
    · rfl
    · exact hpair
  | case3 => rfl

/-- A character is read back as the piece that it is written as, or it was left out. -/
theorem pieces_escapeChar_append (c : Char) (cs : List Char) :
    pieces (escapeChar c ++ cs) = (keptChars [c]).map Piece.ofChar ++ pieces cs := by
  unfold escapeChar
  by_cases hremoved : removed.contains c = true
  · have hkept : keptChars [c] = [] := List.filter_cons_of_neg (by simpa using hremoved)
    rw [if_pos hremoved, hkept]
    rfl
  · have hkept : keptChars [c] = [c] := List.filter_cons_of_pos (by simpa using hremoved)
    rw [if_neg hremoved, hkept]
    by_cases hreserved : c ∈ reserved
    · rw [if_pos (by simpa using hreserved), List.map_singleton, Piece.ofChar_of_mem hreserved]
      exact pieces_pair c cs
    · have hc : c ≠ '\\' := by
        rintro rfl
        exact hreserved (by decide)
      rw [if_neg (by simpa using hreserved), List.map_singleton, Piece.ofChar_of_notMem hreserved]
      exact pieces_single hc cs

/-- An escaped text in front of a query string is read as one piece for each character that is not
left out. -/
theorem pieces_escapeChars_append (cs rest : List Char) :
    pieces (escapeChars cs ++ rest) = (keptChars cs).map Piece.ofChar ++ pieces rest := by
  induction cs with
  | nil => rfl
  | cons c cs ih =>
    have hkept : keptChars (c :: cs) = keptChars [c] ++ keptChars cs :=
      List.filter_append [c] cs
    have hescape : escapeChars (c :: cs) = escapeChar c ++ escapeChars cs := List.flatMap_cons
    rw [hescape, List.append_assoc, pieces_escapeChar_append, ih, hkept, List.map_append,
      List.append_assoc]

theorem pieces_escapeChars (cs : List Char) :
    pieces (escapeChars cs) = (keptChars cs).map Piece.ofChar := by
  have h := pieces_escapeChars_append cs []
  rw [List.append_nil] at h
  rw [h]
  exact List.append_nil _

theorem pieces_escape (s : String) :
    pieces (escape s).toList = (keptChars s.toList).map Piece.ofChar := by
  rw [escape, String.toList_ofList, pieces_escapeChars]

/-- Escaping is undone, but for what is left out. -/
theorem unescape_escape (s : String) : unescape (escape s) = kept s := by
  have hchar : Piece.char ∘ Piece.ofChar = id := funext Piece.char_ofChar
  rw [unescape, pieces_escape, List.map_map, hchar, List.map_id, kept]

/-- The escaped form depends only on what is not left out. -/
theorem escape_congr {s t : String} (h : kept s = kept t) : escape s = escape t := by
  have hchars : keptChars s.toList = keptChars t.toList := String.ofList_injective h
  apply String.toList_injective
  rw [← spelling_pieces (escape s).toList, ← spelling_pieces (escape t).toList, pieces_escape,
    pieces_escape, hchars]

/-- A single character of an escaped text has no meaning in the query language. -/
theorem notMem_of_single {s : String} {c : Char} (h : .single c ∈ pieces (escape s).toList) :
    c ∉ reserved ∧ c ∉ removed := by
  rw [pieces_escape] at h
  obtain ⟨c', hc', hof⟩ := List.mem_map.1 h
  have hkept := (List.mem_filter.1 hc').2
  by_cases hreserved : c' ∈ reserved
  · rw [Piece.ofChar_of_mem hreserved] at hof
    cases hof
  · rw [Piece.ofChar_of_notMem hreserved] at hof
    cases hof
    exact ⟨hreserved, by simpa using hkept⟩

/-- What is left out occurs nowhere in an escaped text. -/
theorem notMem_removed {s : String} {c : Char} (h : c ∈ (escape s).toList) : c ∉ removed := by
  rw [escape, String.toList_ofList, escapeChars] at h
  obtain ⟨c', -, hc⟩ := List.mem_flatMap.1 h
  unfold escapeChar at hc
  by_cases hremoved : removed.contains c' = true
  · rw [if_pos hremoved] at hc
    cases hc
  · have hc' : c' ∉ removed := by simpa using hremoved
    rw [if_neg hremoved] at hc
    split at hc
    · rcases List.mem_cons.1 hc with rfl | hc
      · decide
      · rwa [List.mem_singleton.1 hc]
    · rwa [List.mem_singleton.1 hc]

theorem escape_append (s t : String) : escape (s ++ t) = escape s ++ escape t := by
  simp only [escape, String.toList_append, escapeChars_append, String.ofList_append]

/-- **Escaping is decodable.** Read in pieces, an escaped text stands for the text without the angle
brackets. Every backslash in it opens or closes a pair, the other reserved characters only close
one, and angle brackets do not occur. Texts are escaped one after the other, and two texts have the
same escaped form exactly when they are equal without angle brackets. -/
theorem escape_decodes (s : String) :
    unescape (escape s) = kept s ∧
    (pieces (escape s).toList).flatMap Piece.spelling = (escape s).toList ∧
    (∀ c, .single c ∈ pieces (escape s).toList → c ∉ reserved) ∧
    (∀ c ∈ (escape s).toList, c ∉ removed) ∧
    ∀ t, escape (s ++ t) = escape s ++ escape t ∧ (escape s = escape t ↔ kept s = kept t) := by
  refine ⟨unescape_escape s, spelling_pieces _, fun c h => (notMem_of_single h).1,
    fun c h => notMem_removed h, fun t => ⟨escape_append s t, ?_⟩⟩
  constructor
  · intro h
    rw [← unescape_escape s, ← unescape_escape t, h]
  · exact escape_congr

/-- Backslashes in front of reserved and of removed characters. -/
example : escape "\\\\*\\<b" = "\\\\\\\\\\*\\\\b" ∧ unescape "\\\\\\\\\\*\\\\b" = "\\\\*\\b" := by
  decide

end SearchRequest.QueryText
