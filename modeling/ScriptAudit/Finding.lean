import ScriptAudit.CallGraph

/-! Where a declaration and its use disagree on being asynchronous. -/

namespace ScriptAudit

inductive Issue.Kind where
  /-- Asynchronous, but it never suspends. -/
  | unnecessaryAsync
  /-- Asynchronous, but called without waiting. -/
  | missingAwait
  /-- It suspends, but is not asynchronous. -/
  | missingAsync
  /-- Not asynchronous, but waited for. -/
  | unnecessaryAwait
deriving DecidableEq, Repr

namespace Issue.Kind

def name : Issue.Kind → String
  | .unnecessaryAsync => "unnecessary-async"
  | .missingAwait => "missing-await"
  | .missingAsync => "missing-async"
  | .unnecessaryAwait => "unnecessary-await"

/-- Whether the issue is about calls rather than about the declaration itself. -/
def citesSites : Issue.Kind → Bool
  | .missingAwait | .unnecessaryAwait => true
  | .unnecessaryAsync | .missingAsync => false

end Issue.Kind

structure Issue where
  kind : Issue.Kind
  /-- The calls at fault, where the issue is about calls. -/
  sites : List Call
deriving DecidableEq, Repr

namespace Issue

def make (kind : Kind) (sites : List Call) : Except Error Issue := do
  require (!(kind.citesSites && sites.isEmpty)) (.sitesRequired kind.name)
  require (kind.citesSites || sites.isEmpty) (.sitesForbidden kind.name)
  return ⟨kind, sites⟩

/-- One for each call cited, or one for the declaration. -/
def weight (issue : Issue) : Nat := if issue.kind.citesSites then issue.sites.length else 1

end Issue

structure Finding where
  declaration : Declaration
  issues : List Issue
deriving DecidableEq, Repr

namespace Finding

def make (declaration : Declaration) (issues : List Issue) : Except Error Finding := do
  require (!issues.isEmpty) .noIssue
  return ⟨declaration, issues⟩

def weight (finding : Finding) : Nat :=
  finding.issues.foldl (fun n issue => n + issue.weight) 0

def totalWeight (findings : List Finding) : Nat :=
  findings.foldl (fun n finding => n + finding.weight) 0

end Finding

def issueIf (condition : Bool) (kind : Issue.Kind) : Except Error (List Issue) :=
  if condition then do return [← Issue.make kind []] else .ok []

def issueCiting (sites : List Call) (kind : Issue.Kind) : Except Error (List Issue) :=
  if sites.isEmpty then .ok [] else do return [← Issue.make kind sites]

/-- The issues of a declaration with the given calls: first its own, then those of its calls. -/
def Declaration.issues (d : Declaration) (calls : List Call) : Except Error (List Issue) := do
  if d.isAsync then
    let own ← issueIf (!d.suspends) .unnecessaryAsync
    let cited ← issueCiting (calls.filter fun c => !c.awaited) .missingAwait
    return own ++ cited
  else
    let own ← issueIf d.suspends .missingAsync
    let cited ← issueCiting (calls.filter fun c => c.awaited) .unnecessaryAwait
    return own ++ cited

def Snapshot.findings (s : Snapshot) : Except Error (List Finding) := do
  let found ← s.declarations.mapM fun d => do
    let issues ← d.issues (← s.callsOf d)
    if issues.isEmpty then return [] else return [← Finding.make d issues]
  return found.flatten

end ScriptAudit
