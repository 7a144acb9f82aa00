/-
Texts inside a query string. A character with a meaning in the query language is written after a
backslash; angle brackets cannot be written at all and are left out.
-/
namespace SearchRequest.QueryText

/-- The characters that are written after a backslash. -/
def reserved : List Char :=
  ['\\', '+', '-', '=', '&', '|', '!', '(', ')', '{', '}', '[', ']', '^', '"', '~', '*', '?', ':',
    '/', ' ']

/-- The characters that are left out. -/
def removed : List Char := ['<', '>']

/-- One character of a query string. -/
def escapeChar (c : Char) : List Char :=
  if removed.contains c then []
  else if reserved.contains c then ['\\', c]
  else [c]

/-- The characters of a text inside a query string. -/
def escapeChars (cs : List Char) : List Char :=
  cs.flatMap escapeChar

/-- A text inside a query string. -/
def escape (s : String) : String :=
  String.ofList (escapeChars s.toList)

/-- The query string for a field that contains a text. -/
def contains (field text : String) : String :=
  field ++ ":*" ++ escape text ++ "*"

/-- The query string for a field that does not contain a text. -/
def lacks (field text : String) : String :=
  "(NOT " ++ contains field text ++ ")"

theorem escapeChars_append (s t : List Char) :
    escapeChars (s ++ t) = escapeChars s ++ escapeChars t := by
  simp [escapeChars]

end SearchRequest.QueryText
