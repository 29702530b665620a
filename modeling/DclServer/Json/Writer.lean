import DclServer.Value.Literal

namespace DclServer.Json

def charText (c : Char) : List Char :=
  if c = '"' ∨ c = '\\' then ['\\', c]
  else if 0x20 ≤ c.toNat ∧ c.toNat < 0x7F then [c]
  else if c.toNat < 0x10000 then '\\' :: 'u' :: Text.hexDigits 4 c.toNat
  else
    let n := c.toNat - 0x10000
    '\\' :: 'u' :: Text.hexDigits 4 (0xD800 + n / 0x400) ++
      '\\' :: 'u' :: Text.hexDigits 4 (0xDC00 + n % 0x400)

def quote (s : String) : String :=
  String.ofList ('"' :: s.toList.flatMap charText ++ ['"'])

def scalarText : Scalar → String
  | .null => "null"
  | .bool true => "true"
  | .bool false => "false"
  | .int n => decimal n
  | .float .nan => "NaN"
  | .float (.infinite negative) => if negative then "-Infinity" else "Infinity"
  | .float x => x.text
  | .text s => quote s

/-- The key of a field; only texts are keys in this notation, so any other scalar is spelled out. -/
def keyText : Scalar → String
  | .text s => quote s
  | a => quote (scalarText a)

mutual

def render : Value → String
  | .atom a => scalarText a
  | .list items => "[" ++ ",".intercalate (renderItems items) ++ "]"
  | .object fields => "\x7b" ++ ",".intercalate (renderFields fields) ++ "\x7d"

def renderItems : List Value → List String
  | [] => []
  | v :: vs => render v :: renderItems vs

def renderFields : List (Scalar × Value) → List String
  | [] => []
  | (k, v) :: fs => (keyText k ++ ":" ++ render v) :: renderFields fs

end

end DclServer.Json
