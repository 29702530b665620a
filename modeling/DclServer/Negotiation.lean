import DclServer.Value.Basic

namespace DclServer

structure Flags where
  configuration : Bool := false
  workspaceFolders : Bool := false
  relatedInformation : Bool := false
  deriving DecidableEq, Repr, Inhabited

namespace Negotiation

inductive Spelling where
  | snake
  | camel
  deriving DecidableEq, Repr

/-- A node counts as declared unless it is false or empty; an object always does. -/
def declared : Value → Bool
  | .object _ => true
  | v => v.truthy

def hasPath : List String → Value → Bool
  | [], _ => true
  | key :: path, v =>
    match v.field? key with
    | some node => declared node && hasPath path node
    | none => false

def configurationPath : List String := ["workspace", "configuration"]

def foldersPath : Spelling → List String
  | .snake => ["workspace", "workspace_folders"]
  | .camel => ["workspace", "workspaceFolders"]

def relatedPath : Spelling → List String
  | .snake => ["text_document", "publish_diagnostics", "related_information"]
  | .camel => ["textDocument", "publishDiagnostics", "relatedInformation"]

def negotiate (spelling : Spelling) (capabilities : Value) : Flags where
  configuration := hasPath configurationPath capabilities
  workspaceFolders := hasPath (foldersPath spelling) capabilities
  relatedInformation := hasPath (relatedPath spelling) capabilities

end Negotiation

end DclServer
