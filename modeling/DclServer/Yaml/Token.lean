import DclServer.Yaml.Block
import DclServer.Yaml.Flow

namespace DclServer.Yaml

inductive Atom where
  | plain (s : String)
  | quoted (s : String)
  deriving DecidableEq, Repr

inductive Token where
  | documentStart
  | documentEnd
  | openSequence
  | openMapping
  | close
  | entry
  | key (a : Atom)
  | scalar (a : Atom)
  | openList
  | closeList
  | openFields
  | closeFields
  | comma
  deriving DecidableEq, Repr

/-- The text still to be read, its column, the columns of the open block collections (innermost
first), the number of open brackets, and whether a key may start here. -/
structure Scanner where
  rest : List Char
  column : Nat := 0
  indents : List Nat := []
  depth : Nat := 0
  keyAllowed : Bool := true
  deriving DecidableEq, Repr

def columnAfter (column : Nat) (cs : List Char) : Nat :=
  cs.foldl (fun n c => if isBreak c then 0 else if c = '\ufeff' then n else n + 1) column

/-- Skips spaces, comments and line ends: whether a line end was passed, the column, the rest. -/
def skipGap : Bool → Bool → Nat → List Char → Bool × Nat × List Char
  | _, passed, column, [] => (passed, column, [])
  | comment, passed, column, c :: rest =>
    if isBreak c then skipGap false true 0 rest
    else if comment then skipGap true passed (column + 1) rest
    else if c = ' ' then skipGap false passed (column + 1) rest
    else if c = '#' then skipGap true passed (column + 1) rest
    else (passed, column, c :: rest)

def unwind (column : Nat) : List Nat → List Token × List Nat
  | [] => ([], [])
  | n :: ns =>
    if column < n then
      let (ts, ns) := unwind column ns
      (.close :: ts, ns)
    else ([], n :: ns)

namespace Scanner

def flow (s : Scanner) : Bool := s.depth != 0

def atIndent (s : Scanner) : Bool :=
  s.indents.head? == some s.column

def nests (s : Scanner) : Bool :=
  s.indents.head?.all (· < s.column)

def advance (s : Scanner) (rest : List Char) : Scanner :=
  { s with rest, column := columnAfter s.column (s.rest.take (s.rest.length - rest.length)) }

def skip (s : Scanner) : List Token × Scanner :=
  let (passed, column, rest) := skipGap false false s.column s.rest
  let (ts, indents) := if s.flow then ([], s.indents) else unwind column s.indents
  (ts, { s with rest, column, indents, keyAllowed := s.keyAllowed || passed && !s.flow })

/-- What follows the colon, if a scalar that ends at `rest` is a key: it stands on one line, and the
colon at most 1024 characters after its start. -/
def keyEnd? (s : Scanner) (rest : List Char) : Option (List Char) :=
  let colon := rest.dropWhile (· == ' ')
  let used := s.rest.take (s.rest.length - colon.length)
  match colon with
  | ':' :: after =>
    if s.keyAllowed && (s.flow || ended after) && !used.any isBreak && used.length ≤ 1024 then
      some after
    else none
  | _ => none

def atom (s : Scanner) (a : Atom) (rest : List Char) : Option (List Token × Scanner) :=
  match s.keyEnd? rest with
  | some after =>
    let next := { s.advance after with keyAllowed := false }
    if !s.flow && s.nests then
      some ([.openMapping, .key a], { next with indents := s.column :: s.indents })
    else some ([.key a], next)
  | none =>
    if !s.flow && s.keyAllowed && s.atIndent then none
    else some ([.scalar a], { s.advance rest with keyAllowed := false })

def entry (s : Scanner) (rest : List Char) : Option (List Token × Scanner) :=
  if s.flow || !s.keyAllowed then none
  else
    let next := { s.advance rest with keyAllowed := true }
    if s.nests then some ([.openSequence, .entry], { next with indents := s.column :: s.indents })
    else some ([.entry], next)

def openFlow (s : Scanner) (t : Token) (rest : List Char) : Option (List Token × Scanner) :=
  if !s.flow && s.keyAllowed && s.atIndent then none
  else some ([t], { s.advance rest with depth := s.depth + 1, keyAllowed := true })

def closeFlow (s : Scanner) (t : Token) (rest : List Char) : Option (List Token × Scanner) :=
  if s.flow then some ([t], { s.advance rest with depth := s.depth - 1, keyAllowed := false }) else none

def comma (s : Scanner) (rest : List Char) : Option (List Token × Scanner) :=
  if s.flow then some ([.comma], { s.advance rest with keyAllowed := true }) else none

def marker (s : Scanner) (t : Token) : Option (List Token × Scanner) :=
  if s.flow then none
  else some (s.indents.map (fun _ => .close) ++ [t],
    { s.advance (s.rest.drop 3) with indents := [], keyAllowed := false })

def blockScalar (s : Scanner) (folded : Bool) (rest : List Char) : Option (List Token × Scanner) :=
  let (header, rest) := BlockHeader.read rest
  match Line.split rest with
  | first :: ls =>
    if s.flow || !BlockHeader.lineEnds first.text then none
    else
      let least := (s.indents.head?.map (· + 1)).getD 1
      let (text, ls) := if first.stop.isSome then block folded header least ls else ([], [])
      some ([.scalar (.quoted (String.ofList text))],
        { s with rest := Line.join ls, column := 0, keyAllowed := true })
  | [] => none

def plainIndent (s : Scanner) : Nat :=
  (s.indents.head?.map (· + 1)).getD 0

def lexeme (s : Scanner) : Option (List Token × Scanner) :=
  if s.column = 0 ∧ isMarker s.rest then
    s.marker (if s.rest.head? = some '-' then .documentStart else .documentEnd)
  else match s.rest with
    | [] => none
    | '[' :: rest => s.openFlow .openList rest
    | ']' :: rest => s.closeFlow .closeList rest
    | '\x7b' :: rest => s.openFlow .openFields rest
    | '\x7d' :: rest => s.closeFlow .closeFields rest
    | ',' :: rest => s.comma rest
    | '\'' :: rest => do
      let (text, rest) ← single .empty rest
      s.atom (.quoted (String.ofList text)) rest
    | '"' :: rest => do
      let (text, rest) ← double (.text .empty) rest
      s.atom (.quoted (String.ofList text)) rest
    | '|' :: rest => s.blockScalar false rest
    | '>' :: rest => s.blockScalar true rest
    | c :: rest =>
      if c = '-' ∧ ended rest then s.entry rest
      else if startsPlain s.flow c rest then
        let (text, rest) := plain s.flow s.plainIndent .empty s.column s.rest s.rest
        s.atom (.plain (String.ofList text)) rest
      else none

/-- The tokens of a text. A token takes at least one character, which bounds their number. -/
def scan (s : Scanner) : Option (List Token) :=
  let (ts, here) := s.skip
  if here.rest = [] then
    if here.flow then none else some (ts ++ here.indents.map fun _ => .close)
  else
    match here.lexeme with
    | none => none
    | some (us, next) =>
      if _h : next.rest.length < s.rest.length then (scan next).map fun vs => ts ++ us ++ vs
      else none
termination_by s.rest.length

end Scanner

def Token.scan? (cs : List Char) : Option (List Token) :=
  if cs.all isReadable then
    match cs with
    | '\ufeff' :: rest => Scanner.scan { rest }
    | rest => Scanner.scan { rest }
  else none

end DclServer.Yaml
