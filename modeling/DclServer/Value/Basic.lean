import DclServer.Double.Basic

namespace DclServer

inductive Scalar where
  | null
  | bool (b : Bool)
  | int (n : Int)
  | float (x : Double)
  | text (s : String)
  deriving DecidableEq, Repr

/-- Data as documents and messages carry it. The fields of an object keep their order; in a message
every key is a text, in a document any scalar may be one. -/
inductive Value where
  | atom (a : Scalar)
  | list (items : List Value)
  | object (fields : List (Scalar × Value))
  deriving Repr

namespace Scalar

def truthy : Scalar → Bool
  | .null => false
  | .bool b => b
  | .int n => n != 0
  | .float x => !x.isZero
  | .text s => s != ""

def integer? : Scalar → Option Int
  | .bool b => some b.toNat
  | .int n => some n
  | .float x => x.toInt?
  | _ => none

/-- Whether two keys name the same field: numbers of equal value do, whatever their kind. -/
def sameKey (a b : Scalar) : Bool :=
  match a.integer?, b.integer? with
  | some m, some n => m == n
  | none, none => a == b && a != .float .nan
  | _, _ => false

end Scalar

namespace Value

abbrev null : Value := .atom .null
abbrev bool (b : Bool) : Value := .atom (.bool b)
abbrev int (n : Int) : Value := .atom (.int n)
abbrev text (s : String) : Value := .atom (.text s)

def ofFields (fields : List (String × Value)) : Value :=
  .object (fields.map fun f => (.text f.1, f.2))

def truthy : Value → Bool
  | .atom a => a.truthy
  | .list items => !items.isEmpty
  | .object fields => !fields.isEmpty

def field? (key : String) : Value → Option Value
  | .object fields => fields.lookup (.text key)
  | _ => none

def path? : List String → Value → Option Value
  | [], v => some v
  | key :: path, v => (v.field? key).bind (path? path)

def kindName : Value → String
  | .atom .null => "NoneType"
  | .atom (.bool _) => "bool"
  | .atom (.int _) => "int"
  | .atom (.float _) => "float"
  | .atom (.text _) => "str"
  | .list _ => "list"
  | .object _ => "dict"

end Value

end DclServer
