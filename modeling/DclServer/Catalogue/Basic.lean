import DclServer.Value.Literal

namespace DclServer

structure Entry where
  identifier : Int
  label : String
  detail : String
  documentation : String
  deriving DecidableEq, Repr

structure Resolution where
  detail : String
  documentation : String
  deriving DecidableEq, Repr

inductive Family where
  | lexicals
  | commands
  deriving DecidableEq, Repr

def Family.name : Family → String
  | .lexicals => "lexicals"
  | .commands => "commands"

inductive CatalogueError where
  | duplicateIdentifier (identifier : Int)
  | duplicateLabel (label : String)
  | noDetail (family : Family)
  | malformedItem (family : Family) (item : Value)
  | identifierNotInteger (label : String)
  | notAnObject (kind : String)
  | itemsNotIterable (kind : String)
  | digitless (base : Nat)
  | numeralTooLong (digits : Nat)
  | numberTooLong
  | unreadable
  | missingFile
  deriving Repr

def CatalogueError.kind : CatalogueError → String
  | .notAnObject _ => "AttributeError"
  | .itemsNotIterable _ => "TypeError"
  | .digitless _ | .numeralTooLong _ | .numberTooLong => "ValueError"
  | .missingFile => "FileNotFoundError"
  | _ => "CatalogueError"

/-- The message of an error. Of a file it tells neither the path nor where the text goes wrong. -/
def CatalogueError.message : CatalogueError → String
  | .duplicateIdentifier n => "Duplicate catalogue identifier: " ++ decimal n
  | .duplicateLabel l => "Duplicate catalogue label: " ++ l
  | .noDetail f => "Family '" ++ f.name ++ "' has no detail string"
  | .malformedItem f v => "Malformed item in family '" ++ f.name ++ "': " ++ v.literal
  | .identifierNotInteger l => "Identifier for '" ++ l ++ "' is not an integer"
  | .notAnObject kind => "'" ++ kind ++ "' object has no attribute 'get'"
  | .itemsNotIterable kind => "'" ++ kind ++ "' object is not iterable"
  | .digitless base => "invalid literal for int() with base " ++ decimal base ++ ": ''"
  | .numeralTooLong digits =>
    "Exceeds the limit (4300 digits) for integer string conversion: value has " ++ decimal digits ++
      " digits; use sys.set_int_max_str_digits() to increase the limit"
  | .numberTooLong => Text.tooLong
  | .unreadable => "Cannot parse catalogue"
  | .missingFile => "[Errno 2] No such file or directory"

def CatalogueError.writable : CatalogueError → Bool
  | .duplicateIdentifier n => (Value.int n).writable
  | .malformedItem _ v => v.writable
  | _ => true

/-- An error is reported as it is, unless its message cannot be written. -/
def CatalogueError.reported (e : CatalogueError) : CatalogueError :=
  if e.writable then e else .numberTooLong

/-- The entries in the order they are offered, and the table that resolves their identifiers. -/
structure Catalogue where
  entries : List Entry
  table : List (Int × Resolution)
  deriving DecidableEq, Repr

namespace Catalogue

def row (e : Entry) : Int × Resolution :=
  (e.identifier, ⟨e.detail, e.documentation⟩)

def firstDuplicate : List Entry → List Entry → Option CatalogueError
  | _, [] => none
  | seen, e :: rest =>
    if seen.any (·.identifier == e.identifier) then some (.duplicateIdentifier e.identifier)
    else if seen.any (·.label == e.label) then some (.duplicateLabel e.label)
    else firstDuplicate (e :: seen) rest

def ofEntries (entries : List Entry) : Except CatalogueError Catalogue :=
  match firstDuplicate [] entries with
  | some e => .error e.reported
  | none => .ok ⟨entries, entries.map row⟩

def size (c : Catalogue) : Nat := c.entries.length

def resolve? (c : Catalogue) (identifier : Int) : Option Resolution :=
  c.table.lookup identifier

end Catalogue

end DclServer
