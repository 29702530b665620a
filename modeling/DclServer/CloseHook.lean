import DclServer.Fault

namespace DclServer

/-- What is told when a document is closed. When it runs it does its action, then registers its
child, then raises. A hook is a function or a method and has a name by which its failure is reported;
callables without a name, whose failure could not be reported, are left out. -/
inductive CloseHook (α : Type) where
  | mk (name : String) (action : α) (raises : Option Raised) (child : Option (CloseHook α))

namespace CloseHook

variable {α : Type}

def name : CloseHook α → String
  | .mk name _ _ _ => name

def action : CloseHook α → α
  | .mk _ action _ _ => action

def raises : CloseHook α → Option Raised
  | .mk _ _ raises _ => raises

def child : CloseHook α → Option (CloseHook α)
  | .mk _ _ _ child => child

def size : CloseHook α → Nat
  | .mk _ _ _ none => 1
  | .mk _ _ _ (some h) => h.size + 1

def totalSize : List (CloseHook α) → Nat
  | [] => 0
  | h :: hooks => h.size + totalSize hooks

theorem totalSize_cons (h : CloseHook α) (hooks : List (CloseHook α)) :
    totalSize (h :: hooks) = h.size + totalSize hooks := rfl

theorem totalSize_append (hooks more : List (CloseHook α)) :
    totalSize (hooks ++ more) = totalSize hooks + totalSize more := by
  induction hooks with
  | nil => simp [totalSize]
  | cons h hooks ih => rw [List.cons_append, totalSize, totalSize, ih, Nat.add_assoc]

theorem size_eq_child (h : CloseHook α) : h.size = totalSize h.child.toList + 1 := by
  obtain ⟨_, _, _, _ | _⟩ := h <;> simp [size, child, totalSize]

def failure (h : CloseHook α) (f : Fault) : Log :=
  ⟨.error, "Error in on_close hook " ++ h.name ++ ": " ++ f.describe⟩

end CloseHook

structure Broadcast (α : Type) where
  ran : List (CloseHook α) := []
  added : List (CloseHook α) := []
  logs : List Log := []
  cancelled : Bool := false

/-- Runs hooks in order. One that is registered meanwhile runs after all before it. -/
def broadcast {α : Type} : List (CloseHook α) → Broadcast α
  | [] => {}
  | h :: rest =>
    match h.raises with
    | some .cancelled => { ran := [h], added := h.child.toList, cancelled := true }
    | some (.fault f) =>
      let b := broadcast (rest ++ h.child.toList)
      { b with ran := h :: b.ran, added := h.child.toList ++ b.added, logs := h.failure f :: b.logs }
    | none =>
      let b := broadcast (rest ++ h.child.toList)
      { b with ran := h :: b.ran, added := h.child.toList ++ b.added }
termination_by hooks => CloseHook.totalSize hooks
decreasing_by
  all_goals
    have := h.size_eq_child
    rw [CloseHook.totalSize_append, CloseHook.totalSize_cons]
    omega

end DclServer
