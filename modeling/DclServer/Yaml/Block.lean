namespace DclServer.Yaml

def isBreak (c : Char) : Bool :=
  c == '\n' || c == '\u0085' || c == '\u2028' || c == '\u2029'

/-- How a line end is kept inside a scalar: the two separators as they are, all else as a newline. -/
def breakChar (c : Char) : Char :=
  if c = '\u2028' ∨ c = '\u2029' then c else '\n'

def isReadable (c : Char) : Bool :=
  let n := c.toNat
  n == 0x09 || n == 0x0A || (0x20 ≤ n && n ≤ 0x7E) || n == 0x85 || (0xA0 ≤ n && n ≤ 0xD7FF) ||
    (0xE000 ≤ n && n ≤ 0xFFFD) || 0x10000 ≤ n

def ended : List Char → Bool
  | [] => true
  | c :: _ => c == ' ' || c == '\t' || isBreak c

def isMarker : List Char → Bool
  | '-' :: '-' :: '-' :: rest => ended rest
  | '.' :: '.' :: '.' :: rest => ended rest
  | _ => false

def newlines : List Char → List Char
  | '\r' :: '\n' :: rest => '\n' :: newlines rest
  | '\r' :: rest => '\n' :: newlines rest
  | c :: rest => c :: newlines rest
  | [] => []

structure Line where
  text : List Char
  stop : Option Char
  deriving DecidableEq, Repr

namespace Line

def split : List Char → List Line
  | [] => [⟨[], none⟩]
  | c :: rest =>
    if isBreak c then ⟨[], some c⟩ :: split rest
    else match split rest with
      | l :: ls => { l with text := c :: l.text } :: ls
      | [] => [⟨[c], none⟩]

def join (ls : List Line) : List Char :=
  ls.flatMap fun l => l.text ++ l.stop.toList

def indent (l : Line) : Nat :=
  (l.text.takeWhile (· == ' ')).length

def isSpaces (l : Line) : Bool :=
  l.text.all (· == ' ')

def breaks (l : Line) : List Char :=
  l.stop.toList.map breakChar

def isBlank (n : Nat) (l : Line) : Bool :=
  l.isSpaces && l.text.length ≤ n && l.stop.isSome

def hasText (n : Nat) (l : Line) : Bool :=
  n ≤ l.indent && n < l.text.length

end Line

inductive Chomping where
  | strip
  | clip
  | keep
  deriving DecidableEq, Repr

structure BlockHeader where
  chomping : Chomping
  increment : Option Nat
  deriving DecidableEq, Repr

namespace BlockHeader

def chomping? : Char → Option Chomping
  | '-' => some .strip
  | '+' => some .keep
  | _ => none

def increment? (c : Char) : Option Nat :=
  if '1' ≤ c ∧ c ≤ '9' then some (c.toNat - '0'.toNat) else none

/-- A chomping mark and an indentation digit in either order, each of them optional. -/
def read : List Char → BlockHeader × List Char
  | c :: rest =>
    match chomping? c, increment? c with
    | some m, _ =>
      match rest with
      | d :: after =>
        match increment? d with
        | some n => (⟨m, some n⟩, after)
        | none => (⟨m, none⟩, rest)
      | [] => (⟨m, none⟩, rest)
    | none, some n =>
      match rest with
      | d :: after =>
        match chomping? d with
        | some m => (⟨m, some n⟩, after)
        | none => (⟨.clip, some n⟩, rest)
      | [] => (⟨.clip, some n⟩, rest)
    | none, none => (⟨.clip, none⟩, c :: rest)
  | [] => (⟨.clip, none⟩, [])

def lineEnds (cs : List Char) : Bool :=
  match cs with
  | [] => true
  | ' ' :: rest =>
    match rest.dropWhile (· == ' ') with
    | [] => true
    | c :: _ => c == '#'
  | _ => false

end BlockHeader

def startsBlank : List Char → Bool
  | c :: _ => c == ' ' || c == '\t'
  | [] => false

/-- What joins two lines of text: folding makes a space of a line end, or keeps only the blank
lines, where neither line is indented further. -/
def joint (folded : Bool) (stop : List Char) (flush : Bool) (blanks text : List Char) : List Char :=
  if folded && stop == ['\n'] && flush && !startsBlank text then
    if blanks = [] then [' '] else blanks
  else stop ++ blanks

structure LastLine where
  stop : List Char
  flush : Bool
  deriving DecidableEq, Repr

structure BlockText where
  text : List Char
  stop : List Char
  blanks : List Char
  rest : List Line
  deriving DecidableEq, Repr

/-- The lines of a block scalar at indent `n`, after the last line of text and the blank lines
before this point. -/
def blockText (folded : Bool) (n : Nat) : Option LastLine → List Char → List Line → BlockText
  | last, blanks, [] => ⟨[], (last.map (·.stop)).getD [], blanks, []⟩
  | last, blanks, l :: ls =>
    if l.isBlank n then blockText folded n last (blanks ++ l.breaks) ls
    else if l.hasText n then
      let text := l.text.drop n
      let lead := match last with
        | none => blanks
        | some p => joint folded p.stop p.flush blanks text
      let b := blockText folded n (some ⟨l.breaks, !startsBlank text⟩) [] ls
      { b with text := lead ++ text ++ b.text }
    else ⟨[], (last.map (·.stop)).getD [], blanks, l :: ls⟩

def topIndent : List Line → Nat
  | [] => 0
  | l :: ls => if l.isSpaces && l.stop.isSome then max l.indent (topIndent ls) else l.indent

def block (folded : Bool) (header : BlockHeader) (least : Nat) (ls : List Line) : List Char × List Line :=
  let n := match header.increment with
    | some i => least + i - 1
    | none => max least (topIndent ls)
  let b := blockText folded n none [] ls
  let ending := match header.chomping with
    | .strip => []
    | .clip => b.stop
    | .keep => b.stop ++ b.blanks
  (b.text ++ ending, b.rest)

end DclServer.Yaml
