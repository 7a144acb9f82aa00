import SearchRequest.Value.Basic
import SearchRequest.Decimal.Read
import SearchRequest.Text.Quoted
/-
Documents in JSON. Reading keeps the order of keys, whole numbers of any size and doubles exactly;
a number is whole when it is written without a point and an exponent. Writing uses ASCII alone.
-/
namespace SearchRequest.Json

/-- White space between tokens. -/
def isSpace (c : Char) : Bool :=
  c = ' ' || c = '\t' || c = '\n' || c = '\r'

/-- The characters without white space in front. -/
def skip (cs : List Char) : List Char :=
  cs.dropWhile isSpace

/-- The value of a hexadecimal digit. -/
def hexDigit? (c : Char) : Option Nat :=
  if '0' ≤ c && c ≤ '9' then some (c.toNat - 48)
  else if 'a' ≤ c && c ≤ 'f' then some (c.toNat - 87)
  else if 'A' ≤ c && c ≤ 'F' then some (c.toNat - 55)
  else none

/-- The number that four hexadecimal digits at the front stand for, and the rest. -/
def hex4? : List Char → Option (Nat × List Char)
  | a :: b :: c :: d :: rest => do
    let a ← hexDigit? a
    let b ← hexDigit? b
    let c ← hexDigit? c
    let d ← hexDigit? d
    return (((a * 16 + b) * 16 + c) * 16 + d, rest)
  | _ => none

/-- The character of an escape after its backslash, and the rest. Two escapes in a row that are
halves of a pair are one character. -/
def unescape? : List Char → Option (Char × List Char)
  | 'u' :: rest => do
    let (n, rest) ← hex4? rest
    if 0xd800 ≤ n && n < 0xdc00 then
      match rest with
      | '\\' :: 'u' :: rest => do
        let (m, rest) ← hex4? rest
        return (Char.ofNat (0x10000 + (n - 0xd800) * 0x400 + (m - 0xdc00)), rest)
      | _ => none
    else return (Char.ofNat n, rest)
  | 'n' :: rest => some ('\n', rest)
  | 't' :: rest => some ('\t', rest)
  | 'r' :: rest => some ('\r', rest)
  | 'b' :: rest => some ('\x08', rest)
  | 'f' :: rest => some ('\x0c', rest)
  | c :: rest => some (c, rest)
  | [] => none

/-- The characters up to the closing quote, before those already read in reverse, and the rest. -/
def stringTail? : (fuel : Nat) → List Char → List Char → Option (String × List Char)
  | 0, _, _ => none
  | _, _, [] => none
  | _, seen, '"' :: rest => some (String.ofList seen.reverse, rest)
  | fuel + 1, seen, '\\' :: rest =>
    match unescape? rest with
    | some (c, rest) => stringTail? fuel (c :: seen) rest
    | none => none
  | fuel + 1, seen, c :: rest => stringTail? fuel (c :: seen) rest

/-- A number from its characters. -/
def number? (cs : List Char) : Option Value :=
  if cs.any fun c => c = '.' || c = 'e' || c = 'E' then (Decimal.readFloat? cs).map .float
  else (Decimal.readInt? cs).map .int

/-- Whether a character can be part of a number. -/
def isNumberChar (c : Char) : Bool :=
  c.isDigit || c = '-' || c = '+' || c = '.' || c = 'e' || c = 'E'

/-- A word at the front. -/
def word? (w : String) (v : Value) (cs : List Char) : Option (Value × List Char) :=
  if w.toList.isPrefixOf cs then some (v, cs.drop w.length) else none

mutual

/-- The value at the front, and the rest. -/
def value? : (fuel : Nat) → List Char → Option (Value × List Char)
  | 0, _ => none
  | fuel + 1, cs =>
    match skip cs with
    | '{' :: cs =>
      match skip cs with
      | '}' :: rest => some (.object [], rest)
      | cs => entries? fuel [] cs
    | '[' :: cs =>
      match skip cs with
      | ']' :: rest => some (.list [], rest)
      | cs => items? fuel [] cs
    | '"' :: cs => (stringTail? (cs.length + 1) [] cs).map fun (s, rest) => (.str s, rest)
    | 't' :: cs => word? "true" (.bool true) ('t' :: cs)
    | 'f' :: cs => word? "false" (.bool false) ('f' :: cs)
    | 'n' :: cs => word? "null" .null ('n' :: cs)
    | cs => (number? (cs.takeWhile isNumberChar)).map fun v => (v, cs.dropWhile isNumberChar)

/-- The items of a list up to its closing bracket, after those read already in reverse. -/
def items? : (fuel : Nat) → List Value → List Char → Option (Value × List Char)
  | 0, _, _ => none
  | fuel + 1, seen, cs =>
    match value? fuel cs with
    | none => none
    | some (v, rest) =>
      match skip rest with
      | ',' :: rest => items? fuel (v :: seen) rest
      | ']' :: rest => some (.list (v :: seen).reverse, rest)
      | _ => none

/-- The entries of an object up to its closing brace, after those read already in reverse. -/
def entries? : (fuel : Nat) → Entries → List Char → Option (Value × List Char)
  | 0, _, _ => none
  | fuel + 1, seen, cs =>
    match skip cs with
    | '"' :: cs =>
      match stringTail? (cs.length + 1) [] cs with
      | none => none
      | some (key, rest) =>
        match skip rest with
        | ':' :: rest =>
          match value? fuel rest with
          | none => none
          | some (v, rest) =>
            match skip rest with
            | ',' :: rest => entries? fuel ((key, v) :: seen) rest
            | '}' :: rest => some (.object ((key, v) :: seen).reverse, rest)
            | _ => none
        | _ => none
    | _ => none

end

/-- A document read from its text. -/
def read? (s : String) : Option Value :=
  let cs := s.toList
  match value? (cs.length + 1) cs with
  | some (v, rest) => if (skip rest).isEmpty then some v else none
  | none => none

/-- A number below `2 ^ 16` as an escape. -/
def escape4 (n : Nat) : List Char :=
  '\\' :: 'u' :: Text.hex 4 n

/-- A character of a text. -/
def writeChar (c : Char) : List Char :=
  let n := c.toNat
  if c = '"' || c = '\\' then ['\\', c]
  else if 0x20 ≤ n && n < 0x7f then [c]
  else if n < 0x10000 then escape4 n
  else escape4 (0xd800 + (n - 0x10000) / 0x400) ++ escape4 (0xdc00 + (n - 0x10000) % 0x400)

/-- A text in quotes. -/
def writeString (s : String) : String :=
  String.ofList ('"' :: s.toList.flatMap writeChar ++ ['"'])

mutual

/-- A document of plain data; what has no form in JSON is written as null. -/
def write : Value → String
  | .bool b => if b then "true" else "false"
  | .int i => toString i
  | .str s => writeString s
  | .list vs => "[" ++ String.intercalate "," (writeItems vs) ++ "]"
  | .object es => "\x7b" ++ String.intercalate "," (writeEntries es) ++ "\x7d"
  | _ => "null"

/-- The items of a list. -/
def writeItems : List Value → List String
  | [] => []
  | v :: vs => write v :: writeItems vs

/-- The entries of an object. -/
def writeEntries : Entries → List String
  | [] => []
  | (k, v) :: es => (writeString k ++ ":" ++ write v) :: writeEntries es

end

end SearchRequest.Json
