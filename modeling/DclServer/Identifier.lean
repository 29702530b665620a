import DclServer.Text.Basic
import DclServer.Value.Basic

namespace DclServer.Identifier

/-- Blanks allowed around a number; the separators U+001C to U+001F are not. -/
def isMargin (c : Char) : Bool :=
  Text.isBlank c && !(0x1C ≤ c.toNat && c.toNat ≤ 0x1F)

def digits? : List Char → Option (List Nat)
  | [] => none
  | c :: rest => do
    let d ← Text.digitValue? c
    match rest with
    | [] => return [d]
    | '_' :: rest => return d :: (← digits? rest)
    | rest => return d :: (← digits? rest)

def natural? (cs : List Char) : Option Nat := do
  let ds ← digits? cs
  guard (ds.length ≤ Text.maxDigits)
  return ds.foldl (fun n d => 10 * n + d) 0

def ofText? (s : String) : Option Int :=
  match Text.trim isMargin s.toList with
  | '-' :: rest => (natural? rest).map fun n => -(n : Int)
  | '+' :: rest => (natural? rest).map fun n => (n : Int)
  | cs => (natural? cs).map fun n => (n : Int)

/-- The identifier in an item's data, which a client may hand back as a double or as a text. -/
def ofValue? : Value → Option Int
  | .atom (.int n) => some n
  | .atom (.float x) => x.toInt?
  | .atom (.text s) => ofText? s
  | _ => none

end DclServer.Identifier
