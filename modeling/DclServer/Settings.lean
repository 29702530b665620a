import DclServer.Value.Literal

namespace DclServer

structure Settings where
  maxProblems : Nat := 1000
  deriving DecidableEq, Repr, Inhabited

inductive SettingsError where
  | notObject (found : Value)
  | notInteger (found : Value)
  | negative (n : Int)
  deriving Repr

namespace Settings

def sectionName : String := "languageServer"

def errorMessage : SettingsError → String
  | .notObject v => "Expected a mapping for '" ++ sectionName ++ "', got " ++ v.kindName
  | .notInteger v =>
    if v.writable then "maxNumberOfProblems must be an integer, got " ++ v.literal else Text.tooLong
  | .negative n =>
    if (Value.int n).writable then "maxNumberOfProblems must be non-negative, got " ++ decimal n
    else Text.tooLong

/-- A null section gives the defaults, and so does an absent field. -/
def ofValue : Value → Except SettingsError Settings
  | .atom .null => .ok default
  | .object fields =>
    match (Value.object fields).field? "maxNumberOfProblems" with
    | none => .ok default
    | some (.atom (.int n)) => if 0 ≤ n then .ok ⟨n.toNat⟩ else .error (.negative n)
    | some v => .error (.notInteger v)
  | v => .error (.notObject v)

end Settings

end DclServer
