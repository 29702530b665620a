import DclServer.Text.Basic

namespace DclServer.Uri

inductive Piece where
  | byte (n : Nat)
  | char (c : Char)
  deriving DecidableEq, Repr

def escape? : List Char → Option Nat
  | a :: b :: _ => do return 16 * (← Text.hexValue? a) + (← Text.hexValue? b)
  | _ => none

/-- The pieces of a uri; `skip` characters belong to an escape already read. A percent sign without
two digits stands for itself. -/
def pieces : Nat → List Char → List Piece
  | _, [] => []
  | skip + 1, _ :: rest => pieces skip rest
  | 0, c :: rest =>
    match if c = '%' then escape? rest else none with
    | some n => .byte n :: pieces 2 rest
    | none => (if c.toNat < 0x80 then .byte c.toNat else .char c) :: pieces 0 rest

structure Begun where
  needs : Nat
  low : Nat
  high : Nat
  bits : Nat
  deriving DecidableEq, Repr

def replacement : Char := '\ufffd'

def begins (b : Nat) : List Char × Option Begun :=
  if b < 0x80 then ([Char.ofNat b], none)
  else if 0xC2 ≤ b ∧ b ≤ 0xDF then ([], some ⟨1, 0x80, 0xBF, b - 0xC0⟩)
  else if b = 0xE0 then ([], some ⟨2, 0xA0, 0xBF, 0⟩)
  else if b = 0xED then ([], some ⟨2, 0x80, 0x9F, 0xD⟩)
  else if 0xE1 ≤ b ∧ b ≤ 0xEF then ([], some ⟨2, 0x80, 0xBF, b - 0xE0⟩)
  else if b = 0xF0 then ([], some ⟨3, 0x90, 0xBF, 0⟩)
  else if 0xF1 ≤ b ∧ b ≤ 0xF3 then ([], some ⟨3, 0x80, 0xBF, b - 0xF0⟩)
  else if b = 0xF4 then ([], some ⟨3, 0x80, 0x8F, 4⟩)
  else ([replacement], none)

/-- Reads bytes as UTF-8. An unfinished character is replaced, and the piece that broke it off is
read anew. -/
def characters : Option Begun → List Piece → List Char
  | none, [] => []
  | some _, [] => [replacement]
  | none, .char c :: rest => c :: characters none rest
  | some _, .char c :: rest => replacement :: c :: characters none rest
  | none, .byte b :: rest => (begins b).1 ++ characters (begins b).2 rest
  | some s, .byte b :: rest =>
    if s.low ≤ b ∧ b ≤ s.high then
      let bits := s.bits * 64 + (b - 0x80)
      if s.needs ≤ 1 then Char.ofNat bits :: characters none rest
      else characters (some ⟨s.needs - 1, 0x80, 0xBF, bits⟩) rest
    else replacement :: (begins b).1 ++ characters (begins b).2 rest

def decode (uri : String) : String :=
  String.ofList (characters none (pieces 0 uri.toList))

end DclServer.Uri
