import DclServer.Cache.Fetch

namespace DclServer

/-- Where a caller's settings come from: known at once, told by a fetch when it is finished, or read
from a fetch that had ended already. -/
inductive Source where
  | known (s : Settings)
  | shared (id : FetchId)
  | ended (id : FetchId)
  deriving DecidableEq, Repr

def Source.fetch? : Source → Option FetchId
  | .known _ => none
  | .shared id => some id
  | .ended id => some id

structure Caller where
  uri : String
  serial : Nat
  source : Source
  cancelled : Bool := false
  deriving DecidableEq, Repr

def Caller.hasName (k : Caller) (uri : String) (serial : Nat) : Bool :=
  k.uri == uri && k.serial == serial

inductive Standing where
  | pending
  | cancelled
  | done (o : Outcome)
  deriving DecidableEq, Repr

inductive Effect where
  | ask (id : FetchId)
  | report (l : Log)
  deriving DecidableEq, Repr

/-- The settings of documents. `entries` holds the current fetch of each document, `queue` the
fetches whose turn comes, `calls` those that asked, each in order; fetches and callers are kept for
good. -/
structure Cache where
  pull : Bool
  provider : Provider
  reports : Bool
  shared : Settings := default
  entries : List (String × FetchId) := []
  fetches : List Fetch := []
  queue : List FetchId := []
  calls : List FetchId := []
  callers : List Caller := []
  deriving Repr

namespace Cache

def stage? (c : Cache) (id : FetchId) : Option Stage :=
  (c.fetches.find? (·.id == id)).map (·.stage)

def setStage (c : Cache) (id : FetchId) (stage : Stage) : Cache :=
  { c with fetches := c.fetches.map fun f => if f.id = id then { f with stage } else f }

def outcome? (c : Cache) (id : FetchId) : Option Outcome :=
  (c.stage? id).bind Stage.outcome?

def given? (c : Cache) : Source → Option Outcome
  | .known s => some (.settings s)
  | .shared id =>
    match c.stage? id with
    | some (.finished o) => some o
    | _ => none
  | .ended id => c.outcome? id

def standing (c : Cache) (k : Caller) : Standing :=
  if k.cancelled then .cancelled
  else match c.given? k.source with
    | some .cancelled => .cancelled
    | some o => .done o
    | none => .pending

def callerSerial (c : Cache) (uri : String) : Nat :=
  (c.callers.filter (·.uri == uri)).length

def addCaller (c : Cache) (uri : String) (source : Source) : Cache :=
  { c with callers := c.callers ++ [{ uri, serial := c.callerSerial uri, source }] }

def newFetch (c : Cache) (uri : String) : FetchId :=
  ⟨uri, (c.fetches.filter (·.id.uri == uri)).length⟩

def addFetch (c : Cache) (uri : String) : Cache :=
  let id := c.newFetch uri
  { c with
    entries := c.entries ++ [(uri, id)]
    fetches := c.fetches ++ [⟨id, .created⟩]
    queue := c.queue ++ [id] }

def share (c : Cache) (id : FetchId) : Source :=
  if (c.outcome? id).isSome then .ended id else .shared id

/-- Asks for the settings of a document. Callers share one fetch for a document; without pull, and
for a document that is not open, the shared settings are known at once. -/
def lookup (c : Cache) (isOpen : Bool) (uri : String) : Cache :=
  if c.pull && isOpen then
    match c.entries.lookup uri with
    | some id => c.addCaller uri (c.share id)
    | none =>
      let id := c.newFetch uri
      let c := c.addFetch uri
      c.addCaller uri (c.share id)
  else c.addCaller uri (.known c.shared)

def reply? (c : Cache) (id : FetchId) (r : Reply) : Option Cache :=
  match c.stage? id with
  | some .asked =>
    let c := c.setStage id (.replied r)
    some { c with queue := c.queue ++ [id] }
  | _ => none

/-- Cancels a fetch whose work is not over. The cancellation takes effect when its turn comes, in
place of the question or of a reply that came before. -/
def abort? (c : Cache) (id : FetchId) : Option Cache :=
  match c.stage? id with
  | some .created => some (c.setStage id (.replied .cancelled))
  | some .asked => c.reply? id .cancelled
  | some (.replied _) => some (c.setStage id (.replied .cancelled))
  | _ => none

def cancel? (c : Cache) (uri : String) (serial : Nat) : Option Cache :=
  match c.callers.find? (·.hasName uri serial) with
  | some k =>
    if c.standing k = .pending then
      some { c with callers := c.callers.map fun k =>
        if k.hasName uri serial then { k with cancelled := true } else k }
    else none
  | none => none

def close (c : Cache) (uri : String) : Cache :=
  { c with entries := c.entries.filter (·.1 != uri) }

def pushed (payload : Value) : Except SettingsError Settings :=
  Settings.ofValue ((payload.field? Settings.sectionName).getD .null)

def configure (c : Cache) (payload : Value) : Except SettingsError Cache :=
  if c.pull then .ok { c with entries := [] }
  else (pushed payload).map fun s => { c with shared := s }

def warning (id : FetchId) (reason : String) : Log :=
  ⟨.warning, "Settings fetch for " ++ id.uri ++ " failed (" ++ reason ++ ")"⟩

def conclude (c : Cache) (id : FetchId) (o : Outcome) : Cache :=
  let c := c.setStage id (.ended o)
  { c with queue := c.queue ++ [id] }

/-- Tells the outcome of a fetch. One that failed is reported, and dropped if it still is the entry
of its document. -/
def finish (c : Cache) (id : FetchId) (o : Outcome) : Cache × List Effect :=
  let c := c.setStage id (.finished o)
  match o.reason? with
  | none => (c, [])
  | some reason =>
    ({ c with entries := c.entries.filter (· != (id.uri, id)) },
      if c.reports then [.report (warning id reason)] else [])

def turn (c : Cache) (id : FetchId) : Cache × List Effect :=
  match c.stage? id with
  | some .created =>
    if c.provider = .absent then (c.conclude id (c.provider.outcome (.value .null)), [])
    else ({ c.setStage id .asked with calls := c.calls ++ [id] }, [.ask id])
  | some (.replied r) => (c.conclude id (c.provider.outcome r), [])
  | some (.ended o) => c.finish id o
  | _ => (c, [])

def next (c : Cache) : Cache × List Effect :=
  match c.queue with
  | [] => (c, [])
  | id :: rest => { c with queue := rest }.turn id

def turns (c : Cache) : Nat → Cache × List Effect
  | 0 => (c, [])
  | n + 1 =>
    let (c, es) := c.next
    let (c, more) := c.turns n
    (c, es ++ more)

/-- Gives turns until no fetch waits: one to each that waits, and one more to each that ends then. -/
def settle (c : Cache) : Cache × List Effect :=
  c.turns (2 * c.queue.length)

end Cache

end DclServer
