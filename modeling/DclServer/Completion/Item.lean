import DclServer.Value.Basic

namespace DclServer

/-- An item of a completion list. The client keeps the data and sends it back. -/
structure Item where
  label : String
  kind : Option Int := none
  detail : Option String := none
  documentation : Option String := none
  data : Value := .null
  deriving Repr

structure ItemList where
  isIncomplete : Bool := false
  items : List Item
  deriving Repr

structure Position where
  uri : String
  line : Nat
  character : Nat
  deriving DecidableEq, Repr

inductive Assignment where
  | label (s : String)
  | kind (k : Option Int)
  | detail (s : Option String)
  | documentation (s : Option String)
  | data (v : Value)
  deriving Repr

def Assignment.apply (item : Item) : Assignment → Item
  | .label s => { item with label := s }
  | .kind k => { item with kind := k }
  | .detail s => { item with detail := s }
  | .documentation s => { item with documentation := s }
  | .data v => { item with data := v }

end DclServer
