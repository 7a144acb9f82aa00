/-
Letter case of names that are spelled in ASCII. Outside ASCII only those characters matter whose
other case is an ASCII letter.
-/
namespace SearchRequest.Text

/-- The capital of a letter; the dotless i and the long s have ASCII capitals. -/
def upperChar (c : Char) : Char :=
  if c = 'ı' then 'I' else if c = 'ſ' then 'S' else c.toUpper

/-- A name in capitals. -/
def upper (s : String) : String :=
  s.map upperChar

/-- The small form of a letter; the Kelvin sign has an ASCII one. -/
def lowerChar (c : Char) : Char :=
  if c = '\u212a' then 'k' else c.toLower

/-- A name in small letters. -/
def lower (s : String) : String :=
  s.map lowerChar

end SearchRequest.Text
