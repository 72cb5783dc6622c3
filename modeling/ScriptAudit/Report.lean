import ScriptAudit.Analysis

/-! The report of an analysis, as lines of text. -/

namespace ScriptAudit.Report

def rule : Text := List.replicate 80 (.char '=')

def sectionRule : Text := List.replicate 60 (.char '-')

def heading (title : String) (intro : List String) : List Text :=
  [[], Text.ofString title, sectionRule] ++ intro.map Text.ofString ++ [[]]

def number (n : Nat) : Text := Text.ofNat n

def times (count : Nat) : Text := if count = 1 then "1 time" else number count ++ " times"

def header (a : Analysis) : List Text := [
  rule,
  "FUNCTION ANALYSIS REPORT",
  rule,
  "Root: " ++ a.root,
  "Files discovered: " ++ number a.files.length,
  "Files analyzed: " ++ number a.analyzedFiles,
  [],
  "This report analyzes the codebase for function usage patterns,",
  "async/await consistency, and potential optimization opportunities.",
  [],
  "Note: " ++ number a.summary.skipped ++ " inline functions, callbacks, event handlers and",
  "framework-invoked functions were excluded from usage analysis."]

def warnings (ws : List Warning) : List Text :=
  if ws.isEmpty then []
  else
    heading "WARNINGS" ["Files and directories that could not be analyzed:"] ++
      ws.map fun w => "   [" ++ Text.ofString w.kind.name ++ "] " ++ w.text

def marker (d : Declaration) : Text := if d.isAsync then "[async]" else "[sync]"

def inventoryLine (s : Snapshot) (indent : String) (d : Declaration) : Except Error Text := do
  let calls ← s.callsOf d
  return indent ++ marker d ++ " " ++ Text.ofString d.name ++ " (line " ++ Text.ofInt d.line ++
    ") - called " ++ times calls.length

def classBlock (s : Snapshot) (owner : String) (members : List Declaration) :
    Except Error (List Text) := do
  let lines ← members.mapM (inventoryLine s "    ")
  return ("  Class: " ++ Text.ofString owner ++ " (" ++ number members.length ++ " methods)") ::
    lines

def fileBlock (s : Snapshot) (file : Text) (declarations : List Declaration) :
    Except Error (List Text) := do
  let free ← (declarations.filter (·.owner.isNone)).mapM (inventoryLine s "  ")
  let owned := declarations.filterMap fun d => d.owner.map fun owner => (owner, d)
  let classes ← (Ordered.groupBy Prod.fst owned).mapM fun (owner, members) =>
    classBlock s owner (members.map Prod.snd)
  return (file ++ " (" ++ number declarations.length ++ " trackable functions)") :: free ++
    classes.flatten ++ [[]]

def inventory (s : Snapshot) : Except Error (List Text) := do
  let blocks ← (Ordered.groupBy (·.file) s.declarations).mapM fun (file, declarations) =>
    fileBlock s file declarations
  return heading "FUNCTION INVENTORY" [
    "Trackable functions, organized by file and class.",
    "[async] = async function | [sync] = synchronous function"] ++ blocks.flatten

def issueText : Issue.Kind → String × String
  | .unnecessaryAsync => (
    "UNNECESSARY ASYNC: This function is marked async but contains no awaited operations.",
    "Consider removing the \"async\" keyword.")
  | .missingAwait => (
    "MISSING AWAIT: This async function is called without \"await\" in:",
    "Add \"await\" to these calls or the promise may not be handled properly.")
  | .missingAsync => (
    "MISSING ASYNC: This function contains awaitable operations but is not marked async.",
    "Add the \"async\" keyword to properly handle asynchronous operations.")
  | .unnecessaryAwait => (
    "UNNECESSARY AWAIT: This non-async function is called with \"await\" in:",
    "Remove \"await\" from these calls, they are not needed.")

def issueLines (issue : Issue) : List Text :=
  let (headline, hint) := issueText issue.kind
  let sites : List Text :=
    if issue.sites.isEmpty then []
    else ["      " ++ List.intercalate (Text.ofString ", ") (issue.sites.map Call.site)]
  ["   " ++ Text.ofString headline] ++ sites ++ ["      Hint: " ++ Text.ofString hint]

def findingLines (f : Finding) : List Text :=
  ("x " ++ Text.ofString f.declaration.name ++ " (" ++ f.declaration.site ++ ")") ::
    f.issues.flatMap issueLines ++ [[]]

def asyncValidation (findings : List Finding) (total : Nat) : List Text :=
  heading "ASYNC/AWAIT VALIDATION" ["Potential issues with async/await usage patterns."] ++
    findings.flatMap findingLines ++
    [if total = 0 then Text.ofString "No async/await issues found in trackable functions."
     else "Total async/await issues found: " ++ number total]

def listing (title : String) (lines : List Text) : List Text :=
  if lines.isEmpty then [] else Text.ofString title :: lines ++ [[]]

def item (d : Declaration) (detail : Text) : Text := "   - " ++ Text.ofString d.name ++ detail

def singleUseLine (e : Usage.Entry) : Except Error Text :=
  match e.calls with
  | [] => .error .noCaller
  | caller :: _ =>
    .ok (item e.declaration (" (" ++ e.declaration.site ++ ") -> called from " ++ caller.site))

def usage (u : Usage) : Except Error (List Text) := do
  let once ← u.singleUse.mapM singleUseLine
  return heading "FUNCTION USAGE ANALYSIS" [
      "How often trackable functions are called. Only functions that can be",
      "referenced by name elsewhere in the code are considered."] ++
    listing "UNUSED FUNCTIONS (dead code):"
      (u.unused.map fun e => item e.declaration (" (" ++ e.declaration.site ++ ")")) ++
    listing "SINGLE-USE FUNCTIONS (consider inlining):" once ++
    listing "WELL-USED FUNCTIONS (sorted by call count):"
      (u.wellUsed.map fun e => item e.declaration
        (" (" ++ number e.calls.length ++ " calls) - " ++ e.declaration.site))

def share (n : Nat) (percentage : Int) : Text :=
  number n ++ " (" ++ Text.ofInt percentage ++ "%)"

def summary (s : Summary) : List Text :=
  heading "CODEBASE SUMMARY" [] ++ [
    Text.ofString "Function statistics:",
    "   Total functions: " ++ number s.totalFunctions ++ " (" ++ number s.trackable ++
      " trackable + " ++ number s.skipped ++ " inline/callbacks/events)",
    "   - Trackable async functions: " ++ share s.asyncCount s.asyncPercent,
    "   - Trackable sync functions: " ++ share s.syncCount s.syncPercent,
    [],
    "Usage efficiency: " ++ Text.ofInt s.efficiency ++ "%",
    "   - Well-used functions: " ++ number s.wellUsed,
    "   - Single-use functions: " ++ share s.singleUse s.singleUsePercent,
    "   - Unused functions: " ++ share s.unused s.unusedPercent]

def recommendation (r : Recommendation) : List Text :=
  match r.kind with
  | .cleanup => [
    "Code cleanup priority:",
    "   Remove " ++ number r.count ++ " unused named functions to reduce complexity",
    []]
  | .inline => [
    "Refactoring opportunity:",
    "   Consider inlining " ++ number r.count ++ " single-use functions",
    []]
  | .asyncFix => [
    "Async/await improvements:",
    "   Fix " ++ number r.count ++ " async/await issues to improve reliability",
    []]
  | .healthy => [
    "Healthy codebase.",
    "   No major optimization opportunities detected.",
    []]

def render (a : Analysis) : Except Error (List Text) := do
  let inventoryLines ← inventory a.graph
  let usageLines ← usage a.usage
  return header a ++ warnings a.warnings ++ inventoryLines ++
    asyncValidation a.findings a.summary.asyncIssues ++ usageLines ++ summary a.summary ++
    heading "OPTIMIZATION RECOMMENDATIONS" [] ++ a.recommendations.flatMap recommendation

/-- Codes that ring a console's bell or move its cursor. -/
def isControl (s : Symbol) : Bool := [7, 8, 11, 12, 13].contains s.code

/-- What a console shows of a line: tabs are spread to columns of eight. -/
def onConsole (line : Text) : Text :=
  Text.expandTabs 8 0 (line.filter fun s => !isControl s)

end ScriptAudit.Report
