import ScriptAudit.Finding
import ScriptAudit.Summary
import ScriptAudit.Usage

/-! Everything a report shows about an audited directory. -/

namespace ScriptAudit

inductive Warning.Kind where
  | parse
  | filesystem
deriving DecidableEq, Repr

def Warning.Kind.name : Warning.Kind → String
  | .parse => "parse"
  | .filesystem => "filesystem"

structure Warning where
  kind : Warning.Kind
  path : Text
  message : String
  line : Option Int
deriving DecidableEq, Repr

namespace Warning

def check (w : Warning) : Except Error Warning := do
  require (!w.path.isEmpty) (.blank "path")
  require (w.message ≠ "") (.blank "message")
  match w.line with
  | some line => require (1 ≤ line) (.lineBelowOne line)
  | none => pure ()
  return w

def locate (path : Text) (line : Option Int) : Text :=
  match line with
  | some line => place path line
  | none => path

def text (w : Warning) : Text := locate w.path w.line ++ ": " ++ Text.ofString w.message

end Warning

structure Analysis where
  /-- The audited directory, as it was asked for. -/
  root : Text
  /-- The files found, in the order in which they were read. -/
  files : List Text
  graph : Snapshot
  findings : List Finding
  usage : Usage
  summary : Summary
  recommendations : List Recommendation
  warnings : List Warning
deriving DecidableEq, Repr

namespace Analysis

def check (a : Analysis) : Except Error Analysis := do
  require (a.usage.total = a.summary.trackable) (.tiersMismatch a.usage.total a.summary.trackable)
  require (!a.recommendations.isEmpty) .noRecommendation
  return a

def analyzedFiles (a : Analysis) : Nat :=
  (a.files.filter fun file => !(a.warnings.any fun w => w.path = file)).length

end Analysis

namespace Snapshot

def summarize (s : Snapshot) (usage : Usage) (findings : List Finding) : Except Error Summary :=
  Summary.make s.trackable s.skipped (s.declarations.filter (·.isAsync)).length
    usage.unused.length usage.singleUse.length (Finding.totalWeight findings)

def checkThreshold (threshold : Int) : Except Error Unit :=
  require (0 ≤ threshold) (.negative "inline_threshold" threshold)

def analyze (s : Snapshot) (threshold : Int) (root : Text) (files : List Text)
    (warnings : List Warning) : Except Error Analysis := do
  checkThreshold threshold
  let findings ← s.findings
  let usage ← s.usage
  let summary ← s.summarize usage findings
  let recommendations ← summary.recommend threshold
  Analysis.check ⟨root, files, s, findings, usage, summary, recommendations, warnings⟩

end Snapshot

end ScriptAudit
