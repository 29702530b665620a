import DclServer.Fault
import DclServer.Catalogue.Basic
import DclServer.Completion.Item
import DclServer.Identifier

namespace DclServer

/-- The end of an attempt to fill in an item: the item as it was left, and the item returned or
what was raised. -/
structure Attempt where
  left : Item
  result : Except Raised Item

structure Completer where
  name : String
  description : String
  accepts : Position → Except Raised Bool
  complete : Position → Except Raised ItemList
  resolve : Item → Attempt

inductive Capability where
  | completer (c : Completer)
  | other (name description : String)

def Capability.name : Capability → String
  | .completer c => c.name
  | .other name _ => name

def Capability.description : Capability → String
  | .completer c => c.description
  | .other _ description => description

def Capability.completer? : Capability → Option Completer
  | .completer c => some c
  | .other _ _ => none

namespace Completer

def unchanged (item : Item) : Attempt :=
  ⟨item, .ok item⟩

/-- A way to fill in an item: on a new item or on the one given, assignments, then a failure or the
item. -/
structure Script where
  replacement : Option Item := none
  assignments : List Assignment := []
  raises : Option Raised := none

def Script.run (s : Script) (item : Item) : Attempt :=
  let changed := s.assignments.foldl Assignment.apply (s.replacement.getD item)
  { left := if s.replacement.isSome then item else changed
    result := match s.raises with
      | some r => .error r
      | none => .ok changed }

def keywordItem (e : Entry) : Item :=
  { label := e.label, kind := some 1, data := .int e.identifier }

def resolveKeyword (c : Catalogue) (item : Item) : Item :=
  match (Identifier.ofValue? item.data).bind c.resolve? with
  | some r => { item with detail := some r.detail, documentation := some r.documentation }
  | none => item

def keyword (catalogue : Option Catalogue) : Completer where
  name := "keyword_completion"
  description := "Complete DCL lexical functions (F$...) and common VMS commands"
  accepts := fun _ => .ok catalogue.isSome
  complete := fun _ => .ok { items := ((catalogue.map (·.entries)).getD []).map keywordItem }
  resolve := fun item => unchanged ((catalogue.map (resolveKeyword · item)).getD item)

end Completer

end DclServer
