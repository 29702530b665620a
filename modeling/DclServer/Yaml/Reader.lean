import DclServer.Yaml.Node
import DclServer.Yaml.Plain

namespace DclServer.Yaml

def Atom.value : Atom → Except ReadError Scalar
  | .plain s => Plain.resolve s
  | .quoted s => .ok (.text s)

/-- A key may be the sign that stands for nothing as a value. -/
def Atom.keyValue : Atom → Except ReadError Scalar
  | .plain "=" => .ok (.text "=")
  | a => a.value

def setField (k : Scalar) (v : Value) : List (Scalar × Value) → List (Scalar × Value)
  | [] => [(k, v)]
  | f :: fs => if f.1.sameKey k then (f.1, v) :: fs else f :: setField k v fs

mutual

def Node.value : Node → Except ReadError Value
  | .empty => .ok .null
  | .scalar a => a.value.map .atom
  | .sequence items => (itemValues items).map .list
  | .mapping fields => (fieldValues [] fields).map .object

def itemValues : List Node → Except ReadError (List Value)
  | [] => .ok []
  | n :: ns => do return (← n.value) :: (← itemValues ns)

def fieldValues (done : List (Scalar × Value)) : List (Atom × Node) → Except ReadError (List (Scalar × Value))
  | [] => .ok done
  | (a, n) :: fs => do
    let k ← a.keyValue
    fieldValues (setField k (← n.value) done) fs

end

def parse (s : String) : Except ReadError Value :=
  match (Token.scan? (newlines s.toList)).bind Node.ofTokens? with
  | some n => n.value
  | none => .error .malformed

end DclServer.Yaml
