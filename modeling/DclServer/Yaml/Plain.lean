import DclServer.Text.Basic
import DclServer.Value.Basic
import DclServer.Yaml.Flow

namespace DclServer.Yaml

inductive ReadError where
  | malformed
  | digitless (base : Nat)
  | numeralTooLong (digits : Nat)
  deriving DecidableEq, Repr

namespace Plain

def boolWords : List (String × Bool) :=
  [("yes", true), ("no", false), ("true", true), ("false", false), ("on", true), ("off", false)]

def bool? (s : String) : Option Bool :=
  boolWords.findSome? fun (w, b) => if s = w ∨ s = w.capitalize ∨ s = w.toUpper then some b else none

def isNull (s : String) : Bool :=
  ["", "~", "null", "Null", "NULL"].contains s

def sign : List Char → Bool × List Char
  | '-' :: rest => (true, rest)
  | '+' :: rest => (false, rest)
  | cs => (false, cs)

def isDigitOrLine (c : Char) : Bool := c.isDigit || c == '_'

def digitRun? : List Char → Option (List Char × List Char)
  | c :: rest =>
    if c.isDigit then
      some (c :: (rest.takeWhile isDigitOrLine).filter Char.isDigit, rest.dropWhile isDigitOrLine)
    else none
  | [] => none

/-- An optional exponent, whose sign is not optional, up to the end. -/
def exponent? : List Char → Option Int
  | [] => some 0
  | e :: s :: ds =>
    if (e = 'e' ∨ e = 'E') ∧ (s = '-' ∨ s = '+') ∧ ds ≠ [] ∧ ds.all Char.isDigit then
      let n : Int := Text.natural ds
      some (if s = '-' then -n else n)
    else none
  | _ => none

def fraction? (negative : Bool) (whole rest : List Char) : Option Double := do
  let part := (rest.takeWhile isDigitOrLine).filter Char.isDigit
  let e ← exponent? (rest.dropWhile isDigitOrLine)
  return .ofDecimal negative (Text.natural (whole ++ part)) (e - part.length)

/-- Groups below sixty after a first number, each with its colon: the groups and the rest. -/
def sixtieths : List Char → List Nat × List Char
  | ':' :: a :: b :: rest =>
    if '0' ≤ a ∧ a ≤ '5' ∧ b.isDigit then
      let (gs, after) := sixtieths rest
      (Text.natural [a, b] :: gs, after)
    else if a.isDigit then
      let (gs, after) := sixtieths (b :: rest)
      (Text.natural [a] :: gs, after)
    else ([], ':' :: a :: b :: rest)
  | [':', a] => if a.isDigit then ([Text.natural [a]], []) else ([], [':', a])
  | cs => ([], cs)

def sumSixtieths (whole : Double) (groups : List Double) : Double :=
  let weighed := (whole :: groups).reverse.mapIdx fun i g => g.times (.ofFraction false (Double.power 60 i) 1)
  weighed.foldl Double.plus (.zero false)

def sixtyFloat? (negative : Bool) (whole rest : List Char) : Option Double :=
  let (groups, rest) := sixtieths rest
  match groups.getLast?, rest with
  | some last, '.' :: part =>
    if part.all isDigitOrLine then
      let ds := part.filter Char.isDigit
      let low := Double.ofDecimal false (Text.natural (Nat.toDigits 10 last ++ ds)) (-(ds.length : Int))
      let high := groups.dropLast.map fun g => Double.ofDecimal false g 0
      let x := sumSixtieths (.ofDecimal false (Text.natural whole) 0) (high ++ [low])
      some (if negative then x.negate else x)
    else none
  | _, _ => none

def specialFloat? (cs : List Char) : Option Double :=
  let (negative, body) := sign cs
  if [".inf", ".Inf", ".INF"].contains (String.ofList body) then some (.infinite negative)
  else if [".nan", ".NaN", ".NAN"].contains (String.ofList cs) then some .nan
  else none

/-- A number with a point. A text that starts with the point has no sign. -/
def float? (cs : List Char) : Option Double :=
  match cs with
  | '.' :: d :: rest => if d.isDigit then fraction? false [] (d :: rest) else specialFloat? cs
  | _ =>
    let (negative, body) := sign cs
    match digitRun? body with
    | some (whole, '.' :: rest) => fraction? negative whole rest
    | some (whole, rest) => sixtyFloat? negative whole rest
    | none => specialFloat? cs

def runOf? (isDigit : Char → Bool) (cs : List Char) : Option (List Char) :=
  if cs ≠ [] ∧ cs.all (fun c => isDigit c || c == '_') then some (cs.filter (· != '_')) else none

def ofDigits (base : Nat) (ds : List Char) : Nat :=
  ds.foldl (fun n c => base * n + (Text.hexValue? c).getD 0) 0

def magnitude (base : Nat) (ds : List Char) : Except ReadError Nat :=
  if ds = [] then .error (.digitless base)
  else if base = 10 ∧ Text.maxDigits < ds.length then .error (.numeralTooLong ds.length)
  else .ok (ofDigits base ds)

def isOctal (c : Char) : Bool := '0' ≤ c && c ≤ '7'

def integerForm? : List Char → Option (Nat × List Char × List Nat)
  | ['0'] => some (10, ['0'], [])
  | '0' :: 'b' :: rest => (runOf? (fun c => c == '0' || c == '1') rest).map (2, ·, [])
  | '0' :: 'x' :: rest => (runOf? (fun c => (Text.hexValue? c).isSome) rest).map (16, ·, [])
  | '0' :: rest => (runOf? isOctal rest).map (8, '0' :: ·, [])
  | cs =>
    match digitRun? cs with
    | some (ds, rest) =>
      match sixtieths rest with
      | (groups, []) => some (10, ds, groups)
      | _ => none
    | none => none

def integer? (cs : List Char) : Option (Except ReadError Int) :=
  let (negative, body) := sign cs
  (integerForm? body).map fun (base, ds, groups) => do
    let whole ← magnitude base ds
    let n : Nat := groups.foldl (fun n g => 60 * n + g) whole
    return if negative then -(n : Int) else n

/-- What a plain scalar stands for. Two signs are kept for other uses and stand for nothing. Timestamps are
not told from other texts. -/
def resolve (s : String) : Except ReadError Scalar :=
  let cs := s.toList
  match bool? s, float? cs, integer? cs with
  | some b, _, _ => .ok (.bool b)
  | none, some x, _ => .ok (.float x)
  | none, none, some n => n.map .int
  | none, none, none =>
    if isNull s then .ok .null
    else if s = "=" ∨ s = "<<" then .error .malformed
    else .ok (.text s)

end Plain

end DclServer.Yaml
