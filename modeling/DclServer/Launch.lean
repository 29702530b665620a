import DclServer.Server.Basic

namespace DclServer

inductive DebuggerCall where
  | listen (host : String) (port : Nat)
  | waitForClient
  deriving DecidableEq, Repr

structure Launch where
  notices : List String := []
  debugger : List DebuggerCall := []
  deriving DecidableEq, Repr

/-- In debug mode, which any value but the empty one sets, the server waits for a debugger if there
is one. -/
def Launch.prepare (debug : Option String) (hasDebugger : Bool) : Launch :=
  if debug.any (· != "") then
    let notices := ["DCL Server starting in DEBUG mode", "Waiting for debugger to attach on port 5678..."]
    if hasDebugger then
      { notices := notices ++ ["Debugger attached! Continuing..."]
        debugger := [.listen "127.0.0.1" 5678, .waitForClient] }
    else { notices := notices ++ ["debugpy not available - install with: pip install dclls[debug]"] }
  else {}

structure Served where
  sent : List Message
  closed : Bool
  unread : Nat

def Server.serve (s : Server) : List (Option Server.Event) → Served
  | [] => ⟨[], false, 0⟩
  | none :: rest => ⟨[], true, rest.length⟩
  | some e :: rest =>
    let t := s.step e
    let r := t.server.serve rest
    { r with sent := t.sent ++ r.sent }

end DclServer
