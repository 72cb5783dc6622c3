import ScriptAudit.Text.Quoted

/-! What can go wrong while values of the audit are built, and the wording of each cause. -/

namespace ScriptAudit

inductive Refusal where
  | blank (what : String)
  | blankOwner
  | blankClass
  | lineBelowOne (line : Int)
  | negative (what : String) (n : Int)
  | textlessKey (kind : String)
  | unresolvedKeyWithText
  | sitesRequired (issue : String)
  | sitesForbidden (issue : String)
  | noIssue
  | wrongTier (name tier : String)
  | asyncExceedsTrackable
  | usageExceedsTrackable
  | tiersMismatch (covered expected : Nat)
  | noRecommendation
  | noExtension
  | badExtension (extension : Text)
  | badExcludedName
  | badReportPrefix
deriving DecidableEq, Repr

def Refusal.message : Refusal → String
  | .blank what => what ++ " must not be empty"
  | .blankOwner => "owning_type must be non-empty string or None"
  | .blankClass => "class context requires name"
  | .lineBelowOne line => "line must be >= 1, got " ++ toString line
  | .negative what n => what ++ " must be >= 0, got " ++ toString n
  | .textlessKey kind => kind ++ " key must have text"
  | .unresolvedKeyWithText => "UNRESOLVED key must have empty text"
  | .sitesRequired issue => issue ++ " requires call_sites"
  | .sitesForbidden issue => issue ++ " must not carry call_sites"
  | .noIssue => "finding must have at least one issue"
  | .wrongTier name tier => name ++ " is not " ++ tier
  | .asyncExceedsTrackable => "async_count must be <= trackable"
  | .usageExceedsTrackable => "unused + single_use must be <= trackable"
  | .tiersMismatch covered expected =>
    "usage tiers cover " ++ toString covered ++ " declarations, expected " ++ toString expected
  | .noRecommendation => "recommendations must not be empty"
  | .noExtension => "extensions must not be empty"
  | .badExtension extension =>
    "extension must be lowercase and start with '.', got " ++ extension.quote
  | .badExcludedName => "exclude_dirs must contain plain directory names"
  | .badReportPrefix => "report_prefix must be a non-empty file name prefix"

inductive Error where
  | refused (why : Refusal)
  | noOpenClass
  | uncounted (name : String)
  | uncountedNames (names : List String)
  | noCaller
deriving DecidableEq, Repr

def sortNames (names : List String) : List String :=
  (names.mergeSort fun a b => Text.le (Text.ofString a) (Text.ofString b)).eraseDups

def Error.message : Error → String
  | .refused why => why.message
  | .noOpenClass => "cannot pop from empty context stack"
  | .uncounted name => Text.quote name
  | .uncountedNames names =>
    "declarations without call aggregate: " ++ Text.quoteList ((sortNames names).map Text.ofString)
  | .noCaller => "tuple index out of range"

def require (condition : Bool) (why : Refusal) : Except Error Unit :=
  if condition then .ok () else .error (.refused why)

end ScriptAudit
