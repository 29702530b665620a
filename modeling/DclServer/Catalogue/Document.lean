import DclServer.Catalogue.Basic
import DclServer.Yaml.Reader

namespace DclServer.Catalogue

def shown (v : Value) : Except CatalogueError String :=
  if v.writable then .ok v.display else .error .numberTooLong

def readItem (family : Family) (detail : String) (item : Value) : Except CatalogueError Entry :=
  match item.field? "id", item.field? "label", item.field? "documentation" with
  | some (.atom (.int n)), some label, some documentation => do
    let label ← shown label
    let documentation ← shown documentation
    return ⟨n, label, detail, Text.strip documentation⟩
  | some _, some label, some _ => do throw (.identifierNotInteger (← shown label))
  | _, _, _ => .error (CatalogueError.malformedItem family item).reported

/-- The members of a section's items: an object is gone through by its keys, a text by its
characters. -/
def members (items : Value) : Except CatalogueError (List Value) :=
  if items.truthy then
    match items with
    | .list vs => .ok vs
    | .object fields => .ok (fields.map fun f => .atom f.1)
    | .atom (.text s) => .ok (s.toList.map fun c => .text (String.singleton c))
    | .atom _ => .error (.itemsNotIterable items.kindName)
  else .ok []

def readSection (family : Family) (block : Value) : Except CatalogueError (List Entry) :=
  match block with
  | .object _ =>
    match block.field? "detail" with
    | some (.atom (.text detail)) => do
      let items ← members ((block.field? "items").getD .null)
      items.mapM (readItem family detail)
    | _ => .error (.noDetail family)
  | _ => .error (.notAnObject block.kindName)

def readFamily (document : Value) (family : Family) : Except CatalogueError (List Entry) :=
  match document.field? family.name with
  | some block => if block.truthy then readSection family block else .ok []
  | none => .ok []

def readEntries (document : Value) : Except CatalogueError (List Entry) :=
  if document.truthy then
    match document with
    | .object _ => do
      let lexicals ← readFamily document .lexicals
      let commands ← readFamily document .commands
      return lexicals ++ commands
    | _ => .error (.notAnObject document.kindName)
  else .ok []

def ofValue (document : Value) : Except CatalogueError Catalogue := do
  ofEntries (← readEntries document)

def ofReadError : Yaml.ReadError → CatalogueError
  | .malformed => .unreadable
  | .digitless base => .digitless base
  | .numeralTooLong digits => .numeralTooLong digits

/-- The catalogue in the text of a file, or in none if there is no file. A text with anchors, aliases, tags,
merge keys or directives is not read, although these are YAML too. -/
def load : Option String → Except CatalogueError Catalogue
  | none => .error .missingFile
  | some text =>
    match Yaml.parse text with
    | .ok document => ofValue document
    | .error e => .error (ofReadError e)

end DclServer.Catalogue
