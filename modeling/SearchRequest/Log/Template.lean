import SearchRequest.Entries
import SearchRequest.Decimal.Rounded
import SearchRequest.Text.Digit
import SearchRequest.Value.Display
import SearchRequest.Value.Parts
/-
Message templates. A percent sign starts a place: an optional key in parentheses, flags, a width, a
precision, and a letter that says how the argument is written; two percent signs are one. Arguments
are taken in order, or by key from a single mapping.
-/
namespace SearchRequest.Log.Template

/-- How an argument is written. -/
structure Spec where
  left : Bool := false
  plus : Bool := false
  space : Bool := false
  alternate : Bool := false
  zeros : Bool := false
  width : Nat := 0
  precision : Option Nat := none

/-- The arguments of a template: those still to be taken, and the mapping to look keys up in. What
a key stands for becomes the only argument still to be taken. -/
structure Arguments where
  rest : List Value
  mapping : Option Entries

/-- The next argument. -/
def Arguments.next (a : Arguments) : Except Misuse (Value × Arguments) :=
  match a.rest with
  | v :: vs => .ok (v, { a with rest := vs })
  | [] => .error .kind

/-- The arguments after a key was looked up. -/
def Arguments.select (a : Arguments) (es : Entries) (key : String) : Except Misuse Arguments :=
  match Entries.find? key es with
  | some v => .ok { a with rest := [v] }
  | none => .error .key

/-- Characters filled up to the width. -/
def fill (s : Spec) (cs : List Char) : List Char :=
  let pad := List.replicate (s.width - cs.length) ' '
  if s.left then cs ++ pad else pad ++ cs

/-- A number from its sign, its base mark and its digits, filled up to the width. -/
def number (s : Spec) (negative : Bool) (mark digits : List Char) : List Char :=
  let sign := if negative then ['-'] else if s.plus then ['+'] else if s.space then [' '] else []
  let head := sign ++ mark
  if s.zeros && !s.left then
    head ++ List.replicate (s.width - head.length - digits.length) '0' ++ digits
  else fill s (head ++ digits)

/-- A whole number in a base. -/
def integer (s : Spec) (i : Int) (base : Nat) (mark : List Char) (capital : Bool) : List Char :=
  let ds := Nat.toDigits base i.natAbs
  let ds := List.replicate ((s.precision.getD 0) - ds.length) '0' ++ ds
  let mark := if s.alternate then mark else []
  let up (cs : List Char) : List Char := if capital then cs.map Char.toUpper else cs
  number s (i < 0) (up mark) (up ds)

/-- A double under one of the letters `e`, `f` and `g`. -/
def real (s : Spec) (x : Float) (letter : Char) (capital : Bool) : List Char :=
  let up (cs : List Char) : List Char := if capital then cs.map Char.toUpper else cs
  match Decimal.parts x with
  | .nan => number s false [] (up "nan".toList)
  | .infinite negative => number s negative [] (up "inf".toList)
  | .finite negative m q =>
    let num := m * Nat.pow 2 q.toNat
    let den := Nat.pow 2 (-q).toNat
    let p := s.precision.getD 6
    let ds := match letter with
      | 'f' => Decimal.fixed s.alternate num den p
      | 'e' => Decimal.scientific s.alternate num den p
      | _ => Decimal.general s.alternate num den (max p 1)
    number s negative [] (up ds)

/-- A whole number that an argument is, or that a double is cut down to. -/
def truncated (v : Value) : Except Misuse Int :=
  match v with
  | .int i => .ok i
  | .bool b => .ok (if b then 1 else 0)
  | .float x =>
    match Decimal.parts x with
    | .finite negative m q =>
      let n : Int := (m * Nat.pow 2 q.toNat / Nat.pow 2 (-q).toNat : Nat)
      .ok (if negative then -n else n)
    | .infinite _ => .error .range
    | .nan => .error .length
  | _ => .error .kind

/-- A whole number that an argument is. -/
def whole (v : Value) : Except Misuse Int :=
  match v with
  | .int i => .ok i
  | .bool b => .ok (if b then 1 else 0)
  | _ => .error .kind

/-- A double that an argument is. -/
def double (v : Value) : Except Misuse Float :=
  match v with
  | .float x => .ok x
  | .bool b => .ok (if b then 1 else 0)
  | .int i =>
    match Decimal.ofInt? i with
    | some x => .ok x
    | none => .error .range
  | _ => .error .kind

/-- A text cut to the precision and filled up to the width. -/
def text (s : Spec) (t : String) : List Char :=
  let cs := t.toList
  fill s (match s.precision with
    | some p => cs.take p
    | none => cs)

/-- A single character, given as itself or by its number. -/
def character (s : Spec) (v : Value) : Except Misuse (List Char) :=
  match v with
  | .str t =>
    match t.toList with
    | [c] => .ok (fill s [c])
    | _ => .error .kind
  | v => do
    let i ← whole v
    if 0 ≤ i ∧ i < 0x110000 then return fill s [Char.ofNat i.toNat] else .error .range

/-- An argument written as its letter says. -/
def convert (s : Spec) (letter : Char) (v : Value) : Except Misuse (List Char) :=
  match letter with
  | 's' => .ok (text s v.asText)
  | 'r' => .ok (text s v.display)
  | 'a' => .ok (text s (Text.asciiOnly v.display))
  | 'd' | 'i' | 'u' => (truncated v).map fun i => integer s i 10 [] false
  | 'x' => (whole v).map fun i => integer s i 16 ['0', 'x'] false
  | 'X' => (whole v).map fun i => integer s i 16 ['0', 'x'] true
  | 'o' => (whole v).map fun i => integer s i 8 ['0', 'o'] false
  | 'f' => (double v).map fun x => real s x 'f' false
  | 'F' => (double v).map fun x => real s x 'f' true
  | 'e' => (double v).map fun x => real s x 'e' false
  | 'E' => (double v).map fun x => real s x 'e' true
  | 'g' => (double v).map fun x => real s x 'g' false
  | 'G' => (double v).map fun x => real s x 'g' true
  | 'c' => character s v
  | _ => .error .length

/-- The key in parentheses at the front, parentheses inside it in pairs, and the rest. -/
def spanKey : (depth : Nat) → List Char → Option (List Char × List Char)
  | _, [] => none
  | depth, c :: cs =>
    if c = ')' then
      match depth with
      | 0 => some ([], cs)
      | depth + 1 => (spanKey depth cs).map fun (k, rest) => (c :: k, rest)
    else if c = '(' then (spanKey (depth + 1) cs).map fun (k, rest) => (c :: k, rest)
    else (spanKey depth cs).map fun (k, rest) => (c :: k, rest)

/-- The flags at the front, and the rest. -/
def spanFlags (s : Spec) : List Char → Spec × List Char
  | '-' :: cs => spanFlags { s with left := true } cs
  | '+' :: cs => spanFlags { s with plus := true } cs
  | ' ' :: cs => spanFlags { s with space := true } cs
  | '#' :: cs => spanFlags { s with alternate := true } cs
  | '0' :: cs => spanFlags { s with zeros := true } cs
  | cs => (s, cs)

/-- The number at the front, written out or taken from the arguments by a star, and the rest. It is
at most `most`. -/
def spanNumber (most : Nat) (a : Arguments) (cs : List Char) :
    Except Misuse (Option Int × Arguments × List Char) :=
  match cs with
  | '*' :: cs => do
    let (v, a) ← a.next
    let i ← whole v
    if -most - 1 ≤ i ∧ i ≤ most then return (some i, a, cs) else .error .range
  | cs =>
    let ds := cs.takeWhile Char.isDigit
    let n := Text.ofDigits (ds.map fun c => c.toNat - 48)
    if n ≤ most then
      .ok (if ds.isEmpty then none else some (n : Int), a, cs.dropWhile Char.isDigit)
    else .error .length

/-- The largest width. -/
def mostWidth : Nat := Nat.pow 2 63 - 1

/-- The width at the front, and the rest; a negative one fills on the right. -/
def spanWidth (s : Spec) (a : Arguments) (cs : List Char) :
    Except Misuse (Spec × Arguments × List Char) := do
  let (n, a, cs) ← spanNumber mostWidth a cs
  let n := n.getD 0
  return (if n < 0 then { s with left := true, width := n.natAbs } else { s with width := n.toNat },
    a, cs)

/-- The largest precision. -/
def mostPrecision : Nat := Nat.pow 2 31 - 1

/-- The precision at the front, and the rest; a negative one counts as zero. -/
def spanPrecision (s : Spec) (a : Arguments) (cs : List Char) :
    Except Misuse (Spec × Arguments × List Char) :=
  match cs with
  | '.' :: cs => do
    let (n, a, cs) ← spanNumber mostPrecision a cs
    return ({ s with precision := some (n.getD 0).toNat }, a, cs)
  | cs => .ok (s, a, cs)

/-- The key at the front looked up, if there is one, and the rest. -/
def spanSelection (a : Arguments) (cs : List Char) : Except Misuse (Arguments × List Char) :=
  match cs with
  | '(' :: cs =>
    match a.mapping, spanKey 0 cs with
    | some es, some (key, cs) => (a.select es (String.ofList key)).map (·, cs)
    | some _, none => .error .length
    | none, _ => .error .kind
  | cs => .ok (a, cs)

/-- The rest without the letter for the size of a number, which does not matter. -/
def dropSize : List Char → List Char
  | c :: cs => if c = 'h' || c = 'l' || c = 'L' then cs else c :: cs
  | [] => []

/-- A place without its percent sign: what is written for it, the arguments left and the rest. -/
def place (a : Arguments) (cs : List Char) : Except Misuse (List Char × Arguments × List Char) := do
  let (a, cs) ← spanSelection a cs
  let (s, cs) := spanFlags {} cs
  let (s, a, cs) ← spanWidth s a cs
  let (s, a, cs) ← spanPrecision s a cs
  match dropSize cs with
  | [] => .error .length
  | letter :: cs => do
    let (v, a) ← a.next
    let out ← convert s letter v
    return (out, a, cs)

/-- A template filled in. The count bounds the number of places. -/
def fillIn : (count : Nat) → Arguments → List Char → Except Misuse (List Char)
  | 0, _, _ => .ok []
  | count + 1, a, cs =>
    let plain := cs.takeWhile (· ≠ '%')
    match cs.dropWhile (· ≠ '%') with
    | '%' :: '%' :: cs => (fillIn count a cs).map (plain ++ '%' :: ·)
    | [] => if a.rest.isEmpty || a.mapping.isSome then .ok plain else .error .kind
    | _ :: cs => do
      let (out, a, cs) ← place a cs
      let more ← fillIn count a cs
      return plain ++ out ++ more

/-- The arguments that a message is given. -/
def Arguments.ofList (args : List Value) : Arguments :=
  match args with
  | [.object (e :: es)] => ⟨args, some (e :: es)⟩
  | args => ⟨args, none⟩

/-- The text of a message: a template without arguments is taken as it is. -/
def render (template : String) (args : List Value) : Except Misuse String :=
  if args.isEmpty then .ok template
  else
    let cs := template.toList
    (fillIn (cs.length + 1) (.ofList args) cs).map String.ofList

end SearchRequest.Log.Template
