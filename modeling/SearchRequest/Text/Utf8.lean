/-
Bytes read as text.
-/
namespace SearchRequest.Text

/-- The text that the bytes encode in UTF-8, if they do. -/
def ofUtf8? (bs : List UInt8) : Option String :=
  String.fromUTF8? (ByteArray.mk bs.toArray)

/-- The characters that the bytes stand for in ASCII, if all of them do. -/
def ofAscii? (bs : List UInt8) : Option (List Char) :=
  if bs.all (· < 0x80) then some (bs.map fun b => Char.ofNat b.toNat) else none

end SearchRequest.Text
