import DclServer.Text.Quoted
import DclServer.Double.Decimal
import DclServer.Value.Basic

namespace DclServer

def decimal (n : Int) : String :=
  String.ofList ((if n < 0 then ['-'] else []) ++ Nat.toDigits 10 n.natAbs)

def Scalar.literal : Scalar → String
  | .null => "None"
  | .bool true => "True"
  | .bool false => "False"
  | .int n => decimal n
  | .float x => x.text
  | .text s => Text.quote s

/-- Whether a scalar can be written out, which a number of too many digits cannot. -/
def Scalar.writable : Scalar → Bool
  | .int n => (Nat.toDigits 10 n.natAbs).length ≤ Text.maxDigits
  | _ => true

namespace Value

mutual

def literal : Value → String
  | .atom a => a.literal
  | .list items => "[" ++ ", ".intercalate (itemLiterals items) ++ "]"
  | .object fields => "\x7b" ++ ", ".intercalate (fieldLiterals fields) ++ "\x7d"

def itemLiterals : List Value → List String
  | [] => []
  | v :: vs => v.literal :: itemLiterals vs

def fieldLiterals : List (Scalar × Value) → List String
  | [] => []
  | (k, v) :: fs => (k.literal ++ ": " ++ v.literal) :: fieldLiterals fs

end

mutual

def writable : Value → Bool
  | .atom a => a.writable
  | .list items => itemsWritable items
  | .object fields => fieldsWritable fields

def itemsWritable : List Value → Bool
  | [] => true
  | v :: vs => v.writable && itemsWritable vs

def fieldsWritable : List (Scalar × Value) → Bool
  | [] => true
  | (k, v) :: fs => k.writable && v.writable && fieldsWritable fs

end

/-- A value as it is shown on its own: a text stands for itself. -/
def display : Value → String
  | .atom (.text s) => s
  | v => v.literal

end Value

end DclServer
