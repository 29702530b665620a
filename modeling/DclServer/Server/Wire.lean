import DclServer.Json.Writer
import DclServer.Server.Basic
import DclServer.Text.Basic

namespace DclServer.Wire

inductive Incoming where
  | event (e : Server.Event)
  | exit
  | unknown

def valueAt (path : List String) (v : Value) : Value :=
  (v.path? path).getD .null

def text? : Value → Option String
  | .atom (.text s) => some s
  | _ => none

def int? : Value → Option Int
  | .atom (.int n) => some n
  | _ => none

def textAt (path : List String) (v : Value) : String :=
  (text? (valueAt path v)).getD ""

def intAt (path : List String) (v : Value) : Int :=
  (int? (valueAt path v)).getD 0

def members : Value → List Value
  | .list items => items
  | _ => []

def readPosition (params : Value) : Position where
  uri := textAt ["textDocument", "uri"] params
  line := (intAt ["position", "line"] params).toNat
  character := (intAt ["position", "character"] params).toNat

def readItem (v : Value) : Item where
  label := textAt ["label"] v
  kind := int? (valueAt ["kind"] v)
  detail := text? (valueAt ["detail"] v)
  documentation := text? (valueAt ["documentation"] v)
  data := valueAt ["data"] v

def readCall (method : String) (params : Value) : Server.Call :=
  match method with
  | "initialize" => .handshake (valueAt ["capabilities"] params)
  | "textDocument/completion" => .completion (readPosition params)
  | "completionItem/resolve" => .resolve (readItem params)
  | "shutdown" => .shutdown
  | _ => .unknown method

def readNotification? (method : String) (params : Value) : Option Server.Event :=
  let uri := textAt ["textDocument", "uri"] params
  let folders (which : String) := (members (valueAt ["event", which] params)).map (textAt ["uri"])
  match method with
  | "initialized" => some .initialized
  | "workspace/didChangeConfiguration" => some (.configure (valueAt ["settings"] params))
  | "workspace/didChangeWorkspaceFolders" => some (.folders (folders "added") (folders "removed"))
  | "textDocument/didOpen" => some (.opened uri)
  | "textDocument/didChange" => some (.changed uri)
  | "textDocument/didClose" => some (.closed uri)
  | _ => none

def readAnswer (n : Nat) (message : Value) : Server.Event :=
  match message.field? "error" with
  | some e => .fail n (intAt ["code"] e) (textAt ["message"] e)
  | none => .reply n (valueAt ["result"] message)

/-- A message with a method and an id is a request, one with a method alone a notification, and one
with an id alone an answer. -/
def read (message : Value) : Incoming :=
  let params := valueAt ["params"] message
  match message.field? "method", message.field? "id" with
  | some (.atom (.text "exit")), _ => .exit
  | some (.atom (.text method)), some (.atom id) => .event (.request id (readCall method params))
  | some (.atom (.text method)), none => ((readNotification? method params).map .event).getD .unknown
  | none, some (.atom (.int n)) => if 0 ≤ n then .event (readAnswer n.toNat message) else .unknown
  | _, _ => .unknown

def welcome : Value :=
  .ofFields [
    ("capabilities", .ofFields [
      ("positionEncoding", .text "utf-16"),
      ("textDocumentSync", .ofFields [("openClose", .bool true), ("change", .int 1), ("save", .bool false)]),
      ("completionProvider", .ofFields [("resolveProvider", .bool true)]),
      ("executeCommandProvider", .ofFields [("commands", .list [])]),
      ("workspace", .ofFields [
        ("workspaceFolders", .ofFields [("supported", .bool true), ("changeNotifications", .bool true)]),
        ("fileOperations", .ofFields [])])]),
    ("serverInfo", .ofFields [("name", .text "dclls"), ("version", .text "0.1.0")])]

def itemValue (i : Item) : Value :=
  let present (name : String) (v : Option Value) := (v.map fun v => (name, v)).toList
  let data := match i.data with
    | .atom .null => none
    | v => some v
  .ofFields (("label", .text i.label) :: present "kind" (i.kind.map .int) ++
    present "detail" (i.detail.map .text) ++ present "documentation" (i.documentation.map .text) ++
    present "data" data)

def listValue (l : ItemList) : Value :=
  .ofFields [("isIncomplete", .bool l.isIncomplete), ("items", .list (l.items.map itemValue))]

def methodName : Question → String
  | .register => "client/registerCapability"
  | .configuration _ => "workspace/configuration"

def watchedMethod : String := "workspace/didChangeConfiguration"

def questionParams (n : Nat) : Question → Value
  | .register => .ofFields [("registrations", .list [.ofFields [
      ("id", .text (decimal n)), ("method", .text watchedMethod)]])]
  | .configuration uri => .ofFields [("items", .list [.ofFields [
      ("scopeUri", .text uri), ("section", .text Settings.sectionName)]])]

def responseField : Response → String × Value
  | .welcome => ("result", welcome)
  | .list l => ("result", listValue l)
  | .item i => ("result", itemValue i)
  | .done => ("result", .null)
  | .failure code text => ("error", .ofFields [("code", .int code), ("message", .text text)])

def logParams (l : Log) : Value :=
  .ofFields [("type", .int l.severity.code), ("message", .text l.text)]

def messageFields : Message → List (String × Value)
  | .log l => [("method", .text "window/logMessage"), ("params", logParams l)]
  | .display l => [("method", .text "window/showMessage"), ("params", logParams l)]
  | .request n q => [("id", .int n), ("method", .text (methodName q)), ("params", questionParams n q)]
  | .response id r => [("id", .atom id), responseField r]

def write (m : Message) : Value :=
  .ofFields (("jsonrpc", .text "2.0") :: messageFields m)

/-- A message with its header. The body is ASCII, so its length is its number of bytes. -/
def frame (m : Message) : String :=
  let body := Json.render (write m)
  "Content-Length: " ++ decimal body.length ++ "\r\n\r\n" ++ body

def contentLength? (line : String) : Option Nat :=
  let name := "Content-Length:".toList
  let cs := line.toList
  let digits := Text.trim Text.isBlank (cs.drop name.length)
  if name.isPrefixOf cs && digits != [] && digits.all Char.isDigit then some (Text.natural digits) else none

end DclServer.Wire
