import SearchRequest.Text.Printable
/-
Texts and byte strings in quotes, as messages show them. A text stands between single quotes, or
between double quotes when it holds a single quote and no double one. The quote in use and the
backslash are written after a backslash, line feeds, carriage returns and tabs have their letter,
and other hidden characters are written by their number in hexadecimal.
-/
namespace SearchRequest.Text

/-- A number in hexadecimal, lower case, with leading zeros up to `width` digits. -/
def hex (width n : Nat) : List Char :=
  let ds := Nat.toDigits 16 n
  List.replicate (width - ds.length) '0' ++ ds

/-- A hidden character by its number: two, four or eight digits, whichever suffice. -/
def hexEscape (n : Nat) : List Char :=
  if n < 0x100 then '\\' :: 'x' :: hex 2 n
  else if n < 0x10000 then '\\' :: 'u' :: hex 4 n
  else '\\' :: 'U' :: hex 8 n

/-- One character between quotes `q`, hidden unless `shown`. -/
def quoteChar (shown : Char → Bool) (q c : Char) : List Char :=
  if c = q || c = '\\' then ['\\', c]
  else if c = '\n' then ['\\', 'n']
  else if c = '\r' then ['\\', 'r']
  else if c = '\t' then ['\\', 't']
  else if shown c then [c]
  else hexEscape c.toNat

/-- The quote that a text is written in. -/
def quoteFor (cs : List Char) : Char :=
  if cs.contains '\'' && !cs.contains '"' then '"' else '\''

/-- The characters in quotes. -/
def quoteChars (shown : Char → Bool) (cs : List Char) : List Char :=
  let q := quoteFor cs
  q :: cs.flatMap (quoteChar shown q) ++ [q]

/-- A text in quotes. -/
def quote (s : String) : String :=
  String.ofList (quoteChars isPrintable s.toList)

/-- A text with every character outside ASCII written by its number. -/
def asciiOnly (s : String) : String :=
  String.ofList (s.toList.flatMap fun c => if c.toNat < 0x80 then [c] else hexEscape c.toNat)

/-- A byte string in quotes after a `b`; bytes outside printable ASCII are written by number. -/
def quoteBytes (bs : List UInt8) : String :=
  String.ofList
    ('b' :: quoteChars (fun c => 0x20 ≤ c.toNat && c.toNat < 0x7f)
      (bs.map fun b => Char.ofNat b.toNat))

end SearchRequest.Text
