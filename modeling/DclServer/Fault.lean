import DclServer.Text.Quoted

namespace DclServer

/-- Kinds of failures. The last eight are answers of the client to a request. -/
inductive FaultKind where
  | runtime
  | value
  | key
  | os
  | timeout
  | type
  | internal
  | invalidParams
  | invalidRequest
  | methodNotFound
  | parse
  | requestCancelled
  | serverError
  | rpc
  deriving DecidableEq, Repr

def FaultKind.name : FaultKind → String
  | .runtime => "RuntimeError"
  | .value => "ValueError"
  | .key => "KeyError"
  | .os => "OSError"
  | .timeout => "TimeoutError"
  | .type => "TypeError"
  | .internal => "JsonRpcInternalError"
  | .invalidParams => "JsonRpcInvalidParams"
  | .invalidRequest => "JsonRpcInvalidRequest"
  | .methodNotFound => "JsonRpcMethodNotFound"
  | .parse => "JsonRpcParseError"
  | .requestCancelled => "JsonRpcRequestCancelled"
  | .serverError => "JsonRpcServerError"
  | .rpc => "JsonRpcException"

structure Fault where
  kind : FaultKind
  text : String
  deriving DecidableEq, Repr

namespace Fault

def describe (f : Fault) : String :=
  f.kind.name ++ ": " ++ f.text

def raised (kind : FaultKind) (detail : String) : Fault :=
  ⟨kind, if kind = .key then Text.quote detail else detail⟩

def codeKind (code : Int) : FaultKind × String :=
  if code = -32603 then (.internal, "Internal Error")
  else if code = -32602 then (.invalidParams, "Invalid Params")
  else if code = -32600 then (.invalidRequest, "Invalid Request")
  else if code = -32601 then (.methodNotFound, "Method Not Found")
  else if code = -32700 then (.parse, "Parse Error")
  else if code = -32800 then (.requestCancelled, "Request Cancelled")
  else if -32099 ≤ code ∧ code ≤ -32000 then (.serverError, "")
  else (.rpc, "")

def ofCode (code : Int) (message : String) : Fault :=
  let (kind, standard) := codeKind code
  ⟨kind, if message = "" then standard else message⟩

end Fault

/-- What ends a piece of work early: a failure, which its caller may catch, or a cancellation, which
nobody catches. -/
inductive Raised where
  | fault (f : Fault)
  | cancelled
  deriving DecidableEq, Repr

inductive Severity where
  | error
  | warning
  | info
  deriving DecidableEq, Repr

def Severity.code : Severity → Nat
  | .error => 1
  | .warning => 2
  | .info => 3

structure Log where
  severity : Severity
  text : String
  deriving DecidableEq, Repr

end DclServer
