import DclServer.Cache.Basic
import DclServer.CloseHook

namespace DclServer

/-- A cache in its surroundings: the open documents, unless all count as open, each under the name
that the workspace gives to its uri, and the close hooks, of which some are the cache's own. -/
structure Host where
  cache : Cache
  tracksOpen : Bool
  hooks : List (CloseHook Bool) := []
  naming : String → String := id
  documents : List String := []

namespace Host

inductive Event where
  | opened (uri : String)
  | dropped (uri : String)
  | didClose (uri : String)
  | lookup (uri : String)
  | reply (id : FetchId) (r : Reply)
  | abort (id : FetchId)
  | cancel (uri : String) (serial : Nat)
  | closed (uri : String)
  | broadcast (uri : String)
  | hook (h : CloseHook Bool)
  | configure (payload : Value)
  | turn
  | settle

inductive Answer where
  | nothing
  | ignored
  | cancelled
  | flag (b : Bool)
  | refused (e : SettingsError)
  deriving Repr

structure Step where
  host : Host
  effects : List Effect := []
  answer : Answer := .nothing

def cacheHook : CloseHook Bool :=
  .mk "_on_document_closed" true none none

def isOpen (h : Host) (uri : String) : Bool :=
  !h.tracksOpen || h.documents.contains uri

def latestDone (c : Cache) : Bool :=
  match c.callers.getLast? with
  | some k => c.standing k != .pending
  | none => false

def withCache (h : Host) (c : Cache) : Host := { h with cache := c }

def drop (h : Host) (uri : String) : Host :=
  { h with documents := h.documents.erase (h.naming uri) }

/-- Runs the close hooks. The cache forgets the document if a hook of its own is among those that
ran. -/
def broadcastClose (h : Host) (uri : String) : Step :=
  let b := broadcast h.hooks
  ⟨{ h with
    cache := if b.ran.any (·.action) then h.cache.close uri else h.cache
    hooks := h.hooks ++ b.added }, b.logs.map .report, if b.cancelled then .cancelled else .nothing⟩

def closeNotice (uri : String) : Log :=
  ⟨.info, "Document closed: " ++ uri⟩

def step (h : Host) : Event → Step
  | .opened uri =>
    ⟨{ h with documents := h.documents.erase (h.naming uri) ++ [h.naming uri] }, [], .nothing⟩
  | .dropped uri => ⟨h.drop uri, [], .nothing⟩
  | .didClose uri =>
    let s := (h.drop uri).broadcastClose uri
    { s with effects := .report (closeNotice uri) :: s.effects }
  | .lookup uri =>
    let c := h.cache.lookup (h.isOpen uri) uri
    ⟨h.withCache c, [], .flag (latestDone c)⟩
  | .reply id r =>
    match h.cache.reply? id r with
    | some c => ⟨h.withCache c, [], .nothing⟩
    | none => ⟨h, [], .ignored⟩
  | .abort id =>
    match h.cache.abort? id with
    | some c => ⟨h.withCache c, [], .flag true⟩
    | none => ⟨h, [], .flag false⟩
  | .cancel uri serial =>
    match h.cache.cancel? uri serial with
    | some c => ⟨h.withCache c, [], .flag true⟩
    | none => ⟨h, [], .flag false⟩
  | .closed uri => ⟨h.withCache (h.cache.close uri), [], .nothing⟩
  | .broadcast uri => h.broadcastClose uri
  | .hook x => ⟨{ h with hooks := h.hooks ++ [x] }, [], .nothing⟩
  | .configure payload =>
    match h.cache.configure payload with
    | .ok c => ⟨h.withCache c, [], .nothing⟩
    | .error e => ⟨h, [], .refused e⟩
  | .turn =>
    let (c, es) := h.cache.next
    ⟨h.withCache c, es, .nothing⟩
  | .settle =>
    let (c, es) := h.cache.settle
    ⟨h.withCache c, es, .nothing⟩

def run (h : Host) : List Event → Host × List Effect
  | [] => (h, [])
  | e :: es =>
    let s := h.step e
    let (h, more) := s.host.run es
    (h, s.effects ++ more)

end Host

end DclServer
