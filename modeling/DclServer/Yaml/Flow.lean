import DclServer.Text.Basic
import DclServer.Yaml.Block

namespace DclServer.Yaml

/-- What lies between two pieces of text of a scalar: blanks on one line, line ends, or line ends
after one that was escaped. -/
inductive Gap where
  | blanks (cs : List Char)
  | folded (first : Char) (more : List Char)
  | joined (more : List Char)
  deriving DecidableEq, Repr

namespace Gap

def empty : Gap := .blanks []

def text : Gap → List Char
  | .blanks cs => cs
  | .folded first more =>
    if first = '\n' then (if more = [] then [' '] else more) else first :: more
  | .joined more => more

def blank (c : Char) : Gap → Gap
  | .blanks cs => .blanks (cs ++ [c])
  | g => g

def line (c : Char) : Gap → Gap
  | .blanks _ => .folded (breakChar c) []
  | .folded first more => .folded first (more ++ [breakChar c])
  | .joined more => .joined (more ++ [breakChar c])

end Gap

def emit (cs : List Char) : Option (List Char × List Char) → Option (List Char × List Char)
  | some (text, rest) => some (cs ++ text, rest)
  | none => none

def single : Gap → List Char → Option (List Char × List Char)
  | _, [] => none
  | g, '\'' :: '\'' :: rest => emit (g.text ++ ['\'']) (single .empty rest)
  | g, '\'' :: rest => some (g.text, rest)
  | g, c :: rest =>
    if c = ' ' ∨ c = '\t' then single (g.blank c) rest
    else if isBreak c then if isMarker rest then none else single (g.line c) rest
    else emit (g.text ++ [c]) (single .empty rest)

def escape? : Char → Option Char
  | '0' => some '\x00'
  | 'a' => some '\x07'
  | 'b' => some '\x08'
  | 't' => some '\t'
  | '\t' => some '\t'
  | 'n' => some '\n'
  | 'v' => some '\x0b'
  | 'f' => some '\x0c'
  | 'r' => some '\r'
  | 'e' => some '\x1b'
  | ' ' => some ' '
  | '"' => some '"'
  | '\\' => some '\\'
  | '/' => some '/'
  | 'N' => some '\u0085'
  | '_' => some '\u00a0'
  | 'L' => some '\u2028'
  | 'P' => some '\u2029'
  | _ => none

def hexWidth? : Char → Option Nat
  | 'x' => some 2
  | 'u' => some 4
  | 'U' => some 8
  | _ => none

def codePoint? (n : Nat) : Option Char :=
  if n.isValidChar then some (Char.ofNat n) else none

inductive Mode where
  | text (g : Gap)
  | escape
  | hex (left code : Nat)
  deriving DecidableEq, Repr

def double : Mode → List Char → Option (List Char × List Char)
  | _, [] => none
  | .text g, c :: rest =>
    if c = '"' then some (g.text, rest)
    else if c = '\\' then emit g.text (double .escape rest)
    else if c = ' ' ∨ c = '\t' then double (.text (g.blank c)) rest
    else if isBreak c then if isMarker rest then none else double (.text (g.line c)) rest
    else emit (g.text ++ [c]) (double (.text .empty) rest)
  | .escape, c :: rest =>
    if isBreak c then if isMarker rest then none else double (.text (.joined [])) rest
    else match hexWidth? c, escape? c with
      | some n, _ => double (.hex n 0) rest
      | none, some c => emit [c] (double (.text .empty) rest)
      | none, none => none
  | .hex left code, c :: rest =>
    match Text.hexValue? c with
    | none => none
    | some d =>
      if left ≤ 1 then
        match codePoint? (16 * code + d) with
        | some c => emit [c] (double (.text .empty) rest)
        | none => none
      else double (.hex (left - 1) (16 * code + d)) rest

def colonEnds (flow : Bool) (rest : List Char) : Bool :=
  ended rest || flow && match rest with
    | c :: _ => [',', '[', ']', '\x7b', '\x7d'].contains c
    | [] => false

def Gap.isEmpty (g : Gap) : Bool := g == .empty

def Gap.hasBreak : Gap → Bool
  | .blanks _ => false
  | _ => true

def plainEnds (flow : Bool) (indent : Nat) (g : Gap) (column : Nat) (c : Char) (rest : List Char) : Bool :=
  c == '\t' || c == ':' && colonEnds flow rest ||
    flow && [',', '?', '[', ']', '\x7b', '\x7d'].contains c || c == '#' && !g.isEmpty ||
    !flow && g.hasBreak && column < indent

/-- A plain scalar and what follows its last character. `column` counts from the last line end, and
`mark` is what follows the text read so far. -/
def plain (flow : Bool) (indent : Nat) : Gap → Nat → List Char → List Char → List Char × List Char
  | _, _, mark, [] => ([], mark)
  | g, column, mark, c :: rest =>
    if c = ' ' then plain flow indent (g.blank c) (column + 1) mark rest
    else if isBreak c then
      if isMarker rest then ([], mark) else plain flow indent (g.line c) 0 mark rest
    else if plainEnds flow indent g column c rest then ([], mark)
    else
      let (text, after) := plain flow indent .empty (column + 1) rest rest
      (g.text ++ c :: text, after)

def isIndicator (c : Char) : Bool :=
  ['-', '?', ':', ',', '[', ']', '\x7b', '\x7d', '#', '&', '*', '!', '|', '>', '\'', '"', '%', '@',
    '\x60'].contains c

/-- Whether a plain scalar starts with a character. Some indicators start one if text follows
directly. -/
def startsPlain (flow : Bool) (c : Char) (rest : List Char) : Bool :=
  !(isIndicator c || ended [c]) ||
    !ended rest && (c == '-' || !flow && (c == '?' || c == ':'))

end DclServer.Yaml
