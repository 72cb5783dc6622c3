import ScriptAudit.Error

/-! Points of a function's body at which it may suspend. -/

namespace ScriptAudit

inductive Suspension.Kind where
  | await
  | forAwait
  | promiseChain
  | promiseStatic
deriving DecidableEq, Repr

def Suspension.Kind.name : Suspension.Kind → String
  | .await => "await"
  | .forAwait => "for await"
  | .promiseChain => "promise chain"
  | .promiseStatic => "promise static"

/-- Lines count from one; the label is a short description. -/
structure Suspension where
  line : Int
  kind : Suspension.Kind
  label : String
deriving DecidableEq, Repr

def Suspension.make (line : Int) (kind : Suspension.Kind) (label : String) :
    Except Error Suspension := do
  require (1 ≤ line) (.lineBelowOne line)
  require (label ≠ "") (.blank "label")
  return ⟨line, kind, label⟩

end ScriptAudit
