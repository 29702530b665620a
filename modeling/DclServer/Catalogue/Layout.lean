import DclServer.Catalogue.Basic
import DclServer.Json.Writer

namespace DclServer.Catalogue

structure Record where
  identifier : Int
  label : String
  documentation : String
  deriving DecidableEq, Repr

structure Section where
  detail : String
  records : List Record
  deriving DecidableEq, Repr

def Record.entry (detail : String) (r : Record) : Entry :=
  ⟨r.identifier, r.label, detail, r.documentation⟩

def Section.entries (s : Section) : List Entry :=
  s.records.map (Record.entry s.detail)

def quotedChars (s : String) : List Char :=
  (Json.quote s).toList

def Record.toChars (r : Record) : List Char :=
  "    - id: ".toList ++ (decimal r.identifier).toList ++
    "\n      label: ".toList ++ quotedChars r.label ++
    "\n      documentation: ".toList ++ quotedChars r.documentation ++ ['\n']

/-- A section under the name of its family. The items are a block, unless there are none. -/
def Section.toChars (family : Family) (s : Section) : List Char :=
  family.name.toList ++ ":\n  detail: ".toList ++ quotedChars s.detail ++ "\n  items:".toList ++
    if s.records = [] then " []\n".toList else '\n' :: s.records.flatMap Record.toChars

def render (lexicals commands : Section) : String :=
  String.ofList (lexicals.toChars .lexicals ++ commands.toChars .commands)

end DclServer.Catalogue
