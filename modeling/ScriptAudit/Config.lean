import ScriptAudit.Error
import ScriptAudit.Text.LetterCase

/-! What an audit looks at and what it leaves out. -/

namespace ScriptAudit

/-- A naming convention for functions that a framework calls. -/
structure Convention where
  admits : String → Bool

def isAsciiCapital (c : Char) : Bool := 'A' ≤ c && c ≤ 'Z'

namespace Convention

/-- The stem at the front, then an ASCII capital. -/
def startsWith (stem : String) : Convention where
  admits name := stem.toList.isPrefixOf name.toList &&
    ((name.toList.drop stem.length).head?.elim false isAsciiCapital)

/-- The ending at the end, or before one final newline. -/
def endsWith (ending : String) : Convention where
  admits name :=
    ending.toList.isSuffixOf name.toList || (ending.toList ++ ['\n']).isSuffixOf name.toList

end Convention

structure Config where
  /-- Suffixes of source files, in lower case and with their dot. -/
  extensions : List Text
  excluded : List Text
  blacklist : List String
  conventions : List Convention
  /-- How many functions may be used just once before inlining is suggested. -/
  inlineThreshold : Int
  preferGit : Bool
  reportPrefix : Text

namespace Config

def defaultExtensions : List Text :=
  [".js", ".jsx", ".mjs", ".cjs", ".ts", ".tsx", ".mts", ".cts"].map Text.ofString

def defaultExcluded : List Text := ["node_modules", "dist", "build", ".git"].map Text.ofString

def defaultBlacklist : List String := [
  "render", "preloadTemplates", "constructor",
  "onChange", "onClick", "onSubmit", "onLoad", "onReady", "onFocus", "onBlur",
  "onMouseDown", "onMouseUp", "onMouseOver", "onMouseOut", "onKeyDown", "onKeyUp",
  "onInput", "onScroll", "onResize", "onError", "onSuccess", "onComplete",
  "componentDidMount", "componentWillUnmount", "componentDidUpdate",
  "beforeMount", "mounted", "beforeUpdate", "updated", "beforeDestroy", "destroyed",
  "useEffect", "useState", "useCallback", "useMemo", "useRef"]

def defaultConventions : List Convention := [
  .startsWith "on", .startsWith "handle", .endsWith "Handler", .endsWith "Listener",
  .endsWith "Callback", .startsWith "_on"]

def defaultThreshold : Int := 5

def default : Config where
  extensions := defaultExtensions
  excluded := defaultExcluded
  blacklist := defaultBlacklist
  conventions := defaultConventions
  inlineThreshold := defaultThreshold
  preferGit := true
  reportPrefix := Text.ofString "function-analysis-report"

instance : Inhabited Config := ⟨default⟩

/-- A name that can stand between two slashes of a path. -/
def isPlainName (name : Text) : Bool := !name.isEmpty && !name.contains (.char '/')

def isExtension (extension : Text) : Bool :=
  extension.head? = some (.char '.') && extension.lower = extension

def check (config : Config) : Except Error Config := do
  require (!config.extensions.isEmpty) .noExtension
  match config.extensions.find? fun e => !isExtension e with
  | some extension => throw (.refused (.badExtension extension))
  | none => pure ()
  require (config.excluded.all isPlainName) .badExcludedName
  require (0 ≤ config.inlineThreshold) (.negative "inline_threshold" config.inlineThreshold)
  require (isPlainName config.reportPrefix) .badReportPrefix
  return config

/-- Whether a framework calls functions of this name, so that their calls cannot be seen. -/
def isFrameworkInvoked (config : Config) (name : String) : Bool :=
  config.blacklist.contains name || config.conventions.any (·.admits name)

end Config

end ScriptAudit
