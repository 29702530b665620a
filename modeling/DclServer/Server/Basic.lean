import DclServer.Cache.Basic
import DclServer.CloseHook
import DclServer.Completion.Registry
import DclServer.Negotiation
import DclServer.Server.Uri

namespace DclServer

inductive Question where
  | register
  | configuration (uri : String)
  deriving DecidableEq, Repr

inductive Response where
  | welcome
  | list (l : ItemList)
  | item (i : Item)
  | done
  | failure (code : Int) (text : String)
  deriving Repr

/-- What the server sends. It numbers its own requests; a response has the id that the client gave to
its request. -/
inductive Message where
  | log (l : Log)
  | display (l : Log)
  | request (n : Nat) (q : Question)
  | response (id : Scalar) (r : Response)
  deriving Repr

structure Session where
  flags : Flags
  cache : Nat
  registered : Bool := false
  deriving DecidableEq, Repr

inductive CloseAction where
  | forget (cache : Nat)
  | other
  deriving DecidableEq, Repr

/-- A request that the server sent: a registration, which waits or does not, or the question of a
fetch. -/
inductive Request where
  | registration (waiting : Bool)
  | configuration (cache : Nat) (id : FetchId)
  deriving DecidableEq, Repr

structure CallerRef where
  cache : Nat
  uri : String
  serial : Nat
  deriving DecidableEq, Repr

/-- The server. There are no documents before the first initialization; the caches of replaced
sessions stay. -/
structure Server where
  registry : Registry
  documents : Option (List String) := none
  caches : List Cache := []
  session : Option Session := none
  hooks : List (CloseHook CloseAction) := []
  requests : List Request := []
  callers : List CallerRef := []
  stopped : Bool := false

namespace Server

inductive Call where
  | handshake (capabilities : Value)
  | completion (p : Position)
  | resolve (item : Item)
  | shutdown
  | unknown (method : String)

/-- What happens to the server: messages of the client, and from within lookups, cancellations, the end
of the wait for a request, and further close hooks. -/
inductive Event where
  | request (id : Scalar) (call : Call)
  | initialized
  | configure (settings : Value)
  | folders (added removed : List String)
  | opened (uri : String)
  | changed (uri : String)
  | closed (uri : String)
  | reply (request : Nat) (result : Value)
  | fail (request : Nat) (code : Int) (message : String)
  | lookup (uri : String)
  | cancel (caller : Nat)
  | abandon (request : Nat)
  | hook (h : CloseHook CloseAction)

inductive Answer where
  | nothing
  | ignored
  | noSession
  | flag (b : Bool)
  deriving DecidableEq, Repr

structure Step where
  server : Server
  sent : List Message := []
  answer : Answer := .nothing

def start (catalogue : Catalogue) : Server :=
  { registry := .standard (some catalogue) }

def cacheOf? (s : Server) (sess : Session) : Option Cache := s.caches[sess.cache]?

def setCache (s : Server) (i : Nat) (c : Cache) : Server :=
  { s with caches := s.caches.set i c }

def errorLog (text : String) : Message := .log ⟨.error, text⟩
def infoLog (text : String) : Message := .log ⟨.info, text⟩

def unavailable : Message :=
  .display ⟨.error, "Error in server: " ++
    (Fault.raised .runtime "The workspace is not available - has the server been initialized?").describe⟩

def notOpen (uri : String) : Message :=
  .display ⟨.error, "Error in server: " ++ (Fault.raised .key uri).describe⟩

def greeting (f : Flags) : Message :=
  let word (b : Bool) := (Scalar.bool b).literal
  infoLog ("Client capabilities: configuration=" ++ word f.configuration ++ ", workspaceFolders=" ++
    word f.workspaceFolders ++ ", relatedInformation=" ++ word f.relatedInformation)

def perform (s : Server) (cache : Nat) : List Effect → Server × List Message
  | [] => (s, [])
  | .report l :: es =>
    let (s, ms) := s.perform cache es
    (s, .log l :: ms)
  | .ask id :: es =>
    let asked : Server := { s with requests := s.requests ++ [.configuration cache id] }
    let (t, ms) := asked.perform cache es
    (t, .request s.requests.length (.configuration id.uri) :: ms)

def settle (s : Server) (i : Nat) : Server × List Message :=
  match s.caches[i]? with
  | some c =>
    let (c, es) := c.settle
    (s.setCache i c).perform i es
  | none => (s, [])

def replyTo (s : Server) (i : Nat) (id : FetchId) (r : Reply) : Server × List Message :=
  match (s.caches[i]?).bind (·.reply? id r) with
  | some c => (s.setCache i c).settle i
  | none => (s, [])

def cacheHook (cache : Nat) : CloseHook CloseAction :=
  .mk "_on_document_closed" (.forget cache) none none

def handshake (s : Server) (id : Scalar) (capabilities : Value) : Step :=
  let flags := Negotiation.negotiate .camel capabilities
  let i := s.caches.length
  let cache : Cache := { pull := flags.configuration, provider := .client, reports := true }
  ⟨{ s with
    documents := some []
    caches := s.caches ++ [cache]
    session := some { flags, cache := i }
    hooks := s.hooks ++ [cacheHook i] }, [greeting flags, .response id .welcome], .nothing⟩

/-- Asks once in a session to be told of changed configuration. -/
def initialized (s : Server) : Step :=
  match s.session with
  | some sess =>
    if sess.flags.configuration && !sess.registered then
      ⟨{ s with
        session := some { sess with registered := true }
        requests := s.requests ++ [.registration true] }, [.request s.requests.length .register], .nothing⟩
    else ⟨s, [], .nothing⟩
  | none => ⟨s, [], .nothing⟩

def configure (s : Server) (settings : Value) : Step :=
  match s.session with
  | none => ⟨s, [], .nothing⟩
  | some sess =>
    match s.cacheOf? sess with
    | none => ⟨s, [], .nothing⟩
    | some c =>
      match c.configure settings with
      | .ok c => ⟨s.setCache sess.cache c, [], .nothing⟩
      | .error e => ⟨s, [errorLog ("Invalid settings ignored: " ++ Settings.errorMessage e)], .nothing⟩

def folders (s : Server) (added removed : List String) : Step :=
  if s.documents.isNone && !(added ++ removed).isEmpty then ⟨s, [unavailable], .nothing⟩
  else if s.session.any (·.flags.workspaceFolders) then
    ⟨s, [infoLog "Workspace folder change event received."], .nothing⟩
  else ⟨s, [], .nothing⟩

def opened (s : Server) (uri : String) : Step :=
  match s.documents with
  | some ds =>
    let d := Uri.decode uri
    ⟨{ s with documents := some (ds.erase d ++ [d]) }, [], .nothing⟩
  | none => ⟨s, [unavailable], .nothing⟩

def changed (s : Server) (uri : String) : Step :=
  match s.documents with
  | some ds =>
    let d := Uri.decode uri
    ⟨s, if ds.contains d then [] else [notOpen d], .nothing⟩
  | none => ⟨s, [unavailable], .nothing⟩

def forget (uri : String) (caches : List Cache) (h : CloseHook CloseAction) : List Cache :=
  match h.action with
  | .forget i => caches.modify i (·.close uri)
  | .other => caches

/-- The document goes first, then the hooks hear of it under the uri as it was given. -/
def closed (s : Server) (uri : String) : Step :=
  match s.documents with
  | some ds =>
    let b := broadcast s.hooks
    ⟨{ s with
      documents := some (ds.erase (Uri.decode uri))
      hooks := s.hooks ++ b.added
      caches := b.ran.foldl (forget uri) s.caches },
      infoLog ("Document closed: " ++ uri) :: b.logs.map .log, .nothing⟩
  | none => ⟨s, [unavailable], .nothing⟩

def failed : Raised → Response
  | .fault f => .failure (-32603) f.describe
  | .cancelled => .failure (-32800) "Request Cancelled"

def complete (s : Server) (id : Scalar) (p : Position) : Step :=
  let response := match s.registry.complete p with
    | .ok l => .list l
    | .error r => failed r
  ⟨s, [.response id response], .nothing⟩

def resolve (s : Server) (id : Scalar) (item : Item) : Step :=
  let (logs, result) := s.registry.resolve item
  let response := match result with
    | .ok i => .item i
    | .error r => failed r
  ⟨s, logs.map .log ++ [.response id response], .nothing⟩

def abandon (s : Server) (n : Nat) : Server × List Message :=
  match s.requests[n]? with
  | some (.registration _) => ({ s with requests := s.requests.set n (.registration false) }, [])
  | some (.configuration i id) => s.replyTo i id .cancelled
  | none => (s, [])

def abandonAll (s : Server) : List Nat → Server × List Message
  | [] => (s, [])
  | n :: ns =>
    let (s, ms) := s.abandon n
    let (s, more) := s.abandonAll ns
    (s, ms ++ more)

/-- After the answer, the server waits for nothing and hears no more messages. -/
def shutdown (s : Server) (id : Scalar) : Step :=
  let stopped : Server := { s with stopped := true }
  let (t, ms) := stopped.abandonAll (List.range s.requests.length)
  ⟨t, .response id .done :: ms, .nothing⟩

def answer (s : Server) (n : Nat) (r : Reply) : Step :=
  match s.requests[n]? with
  | none => ⟨s, [], .ignored⟩
  | some (.registration waiting) =>
    let logs := match waiting, r with
      | true, .fault f => [errorLog ("Failed to register for configuration changes: " ++ f.text)]
      | _, _ => []
    ⟨{ s with requests := s.requests.set n (.registration false) }, logs, .nothing⟩
  | some (.configuration i id) =>
    let (s, ms) := s.replyTo i id r
    ⟨s, ms, .nothing⟩

def lookup (s : Server) (uri : String) : Step :=
  match s.session with
  | none => ⟨s, [], .noSession⟩
  | some sess =>
    match s.cacheOf? sess with
    | none => ⟨s, [], .noSession⟩
    | some c =>
      let c := c.lookup (s.documents.any (·.contains uri)) uri
      let ref := c.callers.getLast?.map fun k => (⟨sess.cache, k.uri, k.serial⟩ : CallerRef)
      let s := { s.setCache sess.cache c with callers := s.callers ++ ref.toList }
      let (s, ms) := s.settle sess.cache
      ⟨s, ms, .nothing⟩

def cancel (s : Server) (caller : Nat) : Step :=
  match s.callers[caller]? with
  | some ref =>
    match (s.caches[ref.cache]?).bind (·.cancel? ref.uri ref.serial) with
    | some c => ⟨s.setCache ref.cache c, [], .flag true⟩
    | none => ⟨s, [], .flag false⟩
  | none => ⟨s, [], .flag false⟩

def call (s : Server) (id : Scalar) : Call → Step
  | .handshake capabilities => s.handshake id capabilities
  | .completion p => s.complete id p
  | .resolve item => s.resolve id item
  | .shutdown => s.shutdown id
  | .unknown method => ⟨s, [.response id (.failure (-32601) ("Method Not Found: " ++ method))], .nothing⟩

def handle (s : Server) : Event → Step
  | .request id c => s.call id c
  | .initialized => s.initialized
  | .configure settings => s.configure settings
  | .folders added removed => s.folders added removed
  | .opened uri => s.opened uri
  | .changed uri => s.changed uri
  | .closed uri => s.closed uri
  | .reply n result => s.answer n (.value result)
  | .fail n code message => s.answer n (.fault (.ofCode code message))
  | .lookup uri => s.lookup uri
  | .cancel caller => s.cancel caller
  | .abandon n =>
    let (s, ms) := s.abandon n
    ⟨s, ms, .nothing⟩
  | .hook h => ⟨{ s with hooks := s.hooks ++ [h] }, [], .nothing⟩

def unheard (s : Server) : Event → Answer
  | .reply n _ => if n < s.requests.length then .nothing else .ignored
  | .fail n _ _ => if n < s.requests.length then .nothing else .ignored
  | _ => .nothing

def step (s : Server) (e : Event) : Step :=
  if s.stopped then
    match e with
    | .lookup _ => s.handle e
    | .cancel _ => s.handle e
    | .abandon _ => s.handle e
    | .hook _ => s.handle e
    | _ => ⟨s, [], s.unheard e⟩
  else s.handle e

def run (s : Server) : List Event → Server × List Message
  | [] => (s, [])
  | e :: es =>
    let t := s.step e
    let (s, more) := t.server.run es
    (s, t.sent ++ more)

def standings (s : Server) : List Standing :=
  s.callers.map fun ref =>
    ((s.caches[ref.cache]?).bind fun c =>
      (c.callers.find? fun k => k.uri == ref.uri && k.serial == ref.serial).map c.standing).getD .pending

end Server

end DclServer
