import ScriptAudit.Config
import ScriptAudit.Shape

/-! The name under which a function is tracked, or that it is not tracked at all. -/

namespace ScriptAudit

/-- The name is descriptive only where the function is not tracked. -/
structure Verdict where
  name : String
  tracked : Bool
deriving DecidableEq, Repr

namespace Verdict

def anonymousMethod : Verdict := ⟨"anonymous method", false⟩

def inlineFunction : Verdict := ⟨"callback/inline function", false⟩

end Verdict

def Accessor.mark : Accessor → String
  | .getter => "get "
  | .setter => "set "
  | _ => ""

/-- The verdict by naming rules alone. -/
def Shape.verdict : Shape → Verdict
  | .declared name => ⟨name, true⟩
  | .method _ .constructor => ⟨"constructor", true⟩
  | .method key accessor =>
    match key.name? with
    | none => .anonymousMethod
    | some name => ⟨accessor.mark ++ name, true⟩
  | .bound _ key =>
    match key.name? with
    | none => .inlineFunction
    | some name => ⟨name, true⟩
  | .inline => .inlineFunction

/-- Functions that a framework calls are not tracked: their calls cannot be counted. -/
def Config.classify (config : Config) (shape : Shape) : Verdict :=
  let verdict := shape.verdict
  if verdict.tracked && config.isFrameworkInvoked verdict.name then ⟨verdict.name, false⟩
  else verdict

end ScriptAudit
