import DclServer.Fault
import DclServer.Settings

namespace DclServer

structure FetchId where
  uri : String
  serial : Nat
  deriving DecidableEq, Repr

inductive Reply where
  | value (v : Value)
  | fault (f : Fault)
  | cancelled
  deriving Repr

inductive Outcome where
  | settings (s : Settings)
  | failed (f : Fault)
  | cancelled
  deriving DecidableEq, Repr

/-- A fetch is created by a lookup, asks at its first turn and ends at its turn after the reply. It is
finished when, one turn later, those who wait for it have been told. -/
inductive Stage where
  | created
  | asked
  | replied (r : Reply)
  | ended (o : Outcome)
  | finished (o : Outcome)
  deriving Repr

def Stage.outcome? : Stage → Option Outcome
  | .ended o => some o
  | .finished o => some o
  | _ => none

structure Fetch where
  id : FetchId
  stage : Stage
  deriving Repr

/-- Who answers: a source of sections, a client that answers with a list of them, or nobody. -/
inductive Provider where
  | direct
  | client
  | absent
  deriving DecidableEq, Repr

def firstSection (answer : Value) : Except Fault Value :=
  if answer.truthy then
    match answer with
    | .list items => .ok (items.head?.getD .null)
    | .atom (.text s) => .ok (.text (String.ofList (s.toList.take 1)))
    | .object _ => .error ⟨.key, "0"⟩
    | .atom _ => .error ⟨.type, "'" ++ answer.kindName ++ "' object is not subscriptable"⟩
  else .ok .null

def Provider.sectionOf (p : Provider) (answer : Value) : Except Fault Value :=
  match p with
  | .client => firstSection answer
  | _ => .ok answer

def Outcome.ofSection (v : Value) : Outcome :=
  match Settings.ofValue v with
  | .ok s => .settings s
  | .error e => .failed ⟨.value, Settings.errorMessage e⟩

def Provider.outcome (p : Provider) : Reply → Outcome
  | .value v =>
    match p.sectionOf v with
    | .ok v => .ofSection v
    | .error f => .failed f
  | .fault f => .failed f
  | .cancelled => .cancelled

def Outcome.reason? : Outcome → Option String
  | .settings _ => none
  | .failed f => some f.describe
  | .cancelled => some "cancelled"

end DclServer
