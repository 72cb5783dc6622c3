import ScriptAudit.Grammar
import ScriptAudit.Survey

/-! What an audit tells about its own course. -/

namespace ScriptAudit

inductive Level where
  | debug
  | info
  | warning
  | error
deriving DecidableEq, Repr

namespace Level

def name : Level → String
  | .debug => "DEBUG"
  | .info => "INFO"
  | .warning => "WARNING"
  | .error => "ERROR"

def rank : Level → Nat
  | .debug => 10
  | .info => 20
  | .warning => 30
  | .error => 40

end Level

inductive Method where
  | git
  | walk
deriving DecidableEq, Repr

def Method.name : Method → String
  | .git => "git"
  | .walk => "walk"

inductive Event where
  | gitUnavailable (root : Text)
  | gitFailed (root complaint : Text)
  | listed (count : Nat) (root : Text)
  | walked (count : Nat) (root : Text)
  | skipped (directory : Text) (why : String)
  | analyzing (count : Nat) (root : Text) (method : Method)
  | rejected (path : Text) (grammar : Grammar)
  | unparsed (why : Rejection)
  | unread (path : Text) (why : String)
  | surveyed (path : Text) (stats : Survey.Stats)
  | unsaved (root : Text) (why : String)
  | saved (path : Text)
deriving DecidableEq, Repr

namespace Event

def level : Event → Level
  | .gitUnavailable _ | .gitFailed .. | .listed .. | .walked .. | .rejected .. | .surveyed .. =>
    .debug
  | .analyzing .. | .saved _ => .info
  | .skipped .. | .unparsed _ | .unread .. => .warning
  | .unsaved .. => .error

def message : Event → Text
  | .gitUnavailable root => "git executable not found, walking " ++ root
  | .gitFailed root complaint => "git ls-files failed in " ++ root ++ ": " ++ complaint
  | .listed count root => "git listed " ++ Text.ofNat count ++ " source files under " ++ root
  | .walked count root => "walk found " ++ Text.ofNat count ++ " source files under " ++ root
  | .skipped directory why =>
    "skipping unreadable directory " ++ directory ++ ": " ++ Text.ofString why
  | .analyzing count root method =>
    "analyzing " ++ Text.ofNat count ++ " files under " ++ root ++ " (" ++
      Text.ofString method.name ++ ")"
  | .rejected path grammar =>
    path ++ " rejected by " ++ Text.ofString grammar.name ++ " grammar"
  | .unparsed why => "parse error: " ++ why.message
  | .unread path why => "cannot read " ++ path ++ ": " ++ Text.ofString why
  | .surveyed path stats =>
    path ++ ": " ++ Text.ofNat stats.declarations ++ " declarations, " ++
      Text.ofNat stats.skipped ++ " skipped, " ++ Text.ofNat stats.calls ++ " calls"
  | .unsaved root why => "error writing report under " ++ root ++ ": " ++ Text.ofString why
  | .saved path => "report saved to " ++ path

def atLeast (level : Level) (events : List Event) : List Event :=
  events.filter fun e => level.rank ≤ e.level.rank

end Event

end ScriptAudit
