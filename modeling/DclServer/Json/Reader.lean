import DclServer.Text.Basic
import DclServer.Value.Basic

namespace DclServer.Json

def isSpace (c : Char) : Bool :=
  c == ' ' || c == '\t' || c == '\n' || c == '\r'

def skipSpace (cs : List Char) : List Char :=
  cs.dropWhile isSpace

def unit? : List Char → Option (Nat × List Char)
  | a :: b :: c :: d :: rest => do
    let n := (← Text.hexValue? a) * 4096 + (← Text.hexValue? b) * 256 + (← Text.hexValue? c) * 16 +
      (← Text.hexValue? d)
    return (n, rest)
  | _ => none

def escaped? : Char → Option Char
  | '"' => some '"'
  | '\\' => some '\\'
  | '/' => some '/'
  | 'b' => some '\x08'
  | 'f' => some '\x0c'
  | 'n' => some '\n'
  | 'r' => some '\r'
  | 't' => some '\t'
  | _ => none

def unitEscape? (cs : List Char) : Option (Char × List Char) := do
  let (high, rest) ← unit? cs
  if 0xD800 ≤ high ∧ high < 0xDC00 then
    match rest with
    | '\\' :: 'u' :: rest =>
      let (low, rest) ← unit? rest
      guard (0xDC00 ≤ low ∧ low < 0xE000)
      return (Char.ofNat (0x10000 + (high - 0xD800) * 0x400 + (low - 0xDC00)), rest)
    | _ => none
  else
    guard (high < 0xD800 ∨ 0xE000 ≤ high)
    return (Char.ofNat high, rest)

/-- The characters up to the closing quote, and what follows it. The fuel is the length of the
text, as every step consumes a character. -/
def string? : Nat → List Char → Option (List Char × List Char)
  | _, '"' :: rest => some ([], rest)
  | fuel + 1, '\\' :: 'u' :: rest => do
    let (c, rest) ← unitEscape? rest
    let (cs, rest) ← string? fuel rest
    return (c :: cs, rest)
  | fuel + 1, '\\' :: e :: rest => do
    let c ← escaped? e
    let (cs, rest) ← string? fuel rest
    return (c :: cs, rest)
  | fuel + 1, c :: rest => do
    guard (c ≠ '\\' ∧ 0x20 ≤ c.toNat)
    let (cs, rest) ← string? fuel rest
    return (c :: cs, rest)
  | _, _ => none

def digits (cs : List Char) : List Char × List Char :=
  cs.span Char.isDigit

def exponent? : List Char → Option (Option Int × List Char)
  | c :: rest =>
    if c = 'e' ∨ c = 'E' then
      let (negative, rest) := match rest with
        | '-' :: rest => (true, rest)
        | '+' :: rest => (false, rest)
        | rest => (false, rest)
      let (ds, rest) := digits rest
      if ds = [] then none
      else
        let e : Int := Text.natural ds
        some (some (if negative then -e else e), rest)
    else some (none, c :: rest)
  | [] => some (none, [])

def fraction? : List Char → Option (Option (List Char) × List Char)
  | '.' :: rest =>
    let (ds, rest) := digits rest
    if ds = [] then none else some (some ds, rest)
  | rest => some (none, rest)

/-- A number without fraction and exponent is an integer, any other a double. -/
def number? (cs : List Char) : Option (Scalar × List Char) := do
  let (negative, cs) := match cs with
    | '-' :: rest => (true, rest)
    | cs => (false, cs)
  let (whole, cs) := digits cs
  guard (whole ≠ [] ∧ (whole.length = 1 ∨ whole.head? ≠ some '0'))
  let (fraction, cs) ← fraction? cs
  let (exponent, cs) ← exponent? cs
  match fraction, exponent with
  | none, none =>
    let n : Int := Text.natural whole
    return (.int (if negative then -n else n), cs)
  | _, _ =>
    let part := fraction.getD []
    return (.float (.ofDecimal negative (Text.natural (whole ++ part)) (exponent.getD 0 - part.length)), cs)

def words : List (String × Scalar) :=
  [("null", .null), ("true", .bool true), ("false", .bool false), ("NaN", .float .nan),
    ("Infinity", .float (.infinite false)), ("-Infinity", .float (.infinite true))]

def word? (cs : List Char) : Option (Scalar × List Char) :=
  words.findSome? fun (w, a) =>
    if w.toList.isPrefixOf cs then some (a, cs.drop w.length) else none

mutual

/-- A value after optional space. The fuel bounds the nesting together with the members read. -/
def value? : Nat → List Char → Option (Value × List Char)
  | 0, _ => none
  | fuel + 1, cs =>
    match skipSpace cs with
    | '"' :: rest => do
      let (s, rest) ← string? rest.length rest
      return (.text (String.ofList s), rest)
    | '[' :: rest =>
      match skipSpace rest with
      | ']' :: rest => some (.list [], rest)
      | rest => do
        let (items, rest) ← items? fuel rest
        return (.list items, rest)
    | '\x7b' :: rest =>
      match skipSpace rest with
      | '\x7d' :: rest => some (.object [], rest)
      | rest => do
        let (fields, rest) ← fields? fuel rest
        return (.object fields, rest)
    | cs => do
      let (a, rest) ← word? cs <|> number? cs
      return (.atom a, rest)

def items? : Nat → List Char → Option (List Value × List Char)
  | 0, _ => none
  | fuel + 1, cs => do
    let (v, rest) ← value? fuel cs
    match skipSpace rest with
    | ',' :: rest =>
      let (vs, rest) ← items? fuel rest
      return (v :: vs, rest)
    | ']' :: rest => return ([v], rest)
    | _ => none

def fields? : Nat → List Char → Option (List (Scalar × Value) × List Char)
  | 0, _ => none
  | fuel + 1, cs => do
    let '"' :: rest := skipSpace cs | none
    let (key, rest) ← string? rest.length rest
    let ':' :: rest := skipSpace rest | none
    let (v, rest) ← value? fuel rest
    let field := (Scalar.text (String.ofList key), v)
    match skipSpace rest with
    | ',' :: rest =>
      let (fs, rest) ← fields? fuel rest
      return (field :: fs, rest)
    | '\x7d' :: rest => return ([field], rest)
    | _ => none

end

def parse? (s : String) : Option Value := do
  let cs := s.toList
  let (v, rest) ← value? (cs.length + 1) cs
  guard (skipSpace rest = [])
  return v

end DclServer.Json
