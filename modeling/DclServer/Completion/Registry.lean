import DclServer.Completion.Completer

namespace DclServer

structure Registry where
  capabilities : List (String × Capability)

namespace Registry

/-- A repeated key keeps its place and gets the new capability. -/
def register (key : String) (c : Capability) : List (String × Capability) → List (String × Capability)
  | [] => [(key, c)]
  | e :: es => if e.1 = key then (key, c) :: es else e :: register key c es

def ofList (entries : List (String × Capability)) : Registry :=
  ⟨entries.foldl (fun es e => register e.1 e.2 es) []⟩

def standard (catalogue : Option Catalogue) : Registry :=
  ⟨[("keyword_completion", .completer (.keyword catalogue))]⟩

def get? (r : Registry) (key : String) : Option Capability :=
  r.capabilities.lookup key

def completers (r : Registry) : List Completer :=
  r.capabilities.filterMap (·.2.completer?)

def completeAll (p : Position) : List Completer → Except Raised (List Item)
  | [] => .ok []
  | c :: cs => do
    let items ← if ← c.accepts p then (·.items) <$> c.complete p else pure []
    return items ++ (← completeAll p cs)

def complete (r : Registry) (p : Position) : Except Raised ItemList :=
  (completeAll p r.completers).map fun items => { items }

def failure (c : Completer) (f : Fault) : Log :=
  ⟨.error, "Completion resolve error in " ++ c.name ++ ": " ++ f.text⟩

/-- Passes an item from completer to completer until one gives it a documentation. A failure is
reported, and the item goes on as the failing completer left it. -/
def resolveAll : List Completer → Item → List Log × Except Raised Item
  | [], item => ([], .ok item)
  | c :: cs, item =>
    let a := c.resolve item
    match a.result with
    | .ok next => if next.documentation.isSome then ([], .ok next) else resolveAll cs next
    | .error (.fault f) =>
      let (logs, result) := resolveAll cs a.left
      (failure c f :: logs, result)
    | .error .cancelled => ([], .error .cancelled)

def resolve (r : Registry) (item : Item) : List Log × Except Raised Item :=
  resolveAll r.completers item

end Registry

def completion (r : Option Registry) (p : Position) : Except Raised ItemList :=
  match r with
  | some r => r.complete p
  | none => .ok { items := [] }

def completionResolve (r : Option Registry) (item : Item) : List Log × Except Raised Item :=
  match r with
  | some r => r.resolve item
  | none => ([], .ok item)

end DclServer
