import ScriptAudit.Audit
import ScriptAudit.CommandLine

/-! What the program does for a command line on a host. -/

namespace ScriptAudit

structure Session where
  answer : CommandLine.Answer
  host : Host
  events : List Event

namespace Session

def output (root : Path) (report : List Text) (saved : Option Path) : List Text :=
  let start := "Starting function analysis for: " ++ root.text
  let finish := match saved with
    | some path => [[], "Report saved to: " ++ path.text]
    | none => []
  (start :: report ++ finish).map Report.onConsole

def level (settings : Settings) : Level := if settings.verbose then .debug else .warning

def audit (h : Host) (settings : Settings) (stamp : Stamp) : Except Audit.Failure Session := do
  let config ← settings.config.check.mapError .refused
  let stamp := if settings.save then some stamp else none
  match Audit.run h config Grammar.read settings.root stamp with
  | .error (.undiscovered (.badRoot why)) =>
    let complaint := Report.onConsole ("Error: " ++ why.message)
    return ⟨⟨1, output settings.root [] none, [complaint]⟩, h, []⟩
  | .error why => throw why
  | .ok o =>
    return ⟨⟨0, output settings.root o.report o.saved, []⟩, o.host,
      Event.atLeast (level settings) o.events⟩

def run (h : Host) (argv : List Text) (stamp : Stamp) : Except Audit.Failure Session :=
  match CommandLine.read argv with
  | .error stop => .ok ⟨stop.answer, h, []⟩
  | .ok settings => audit h settings stamp

end Session

end ScriptAudit
