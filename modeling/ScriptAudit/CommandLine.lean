import ScriptAudit.CommandLine.Word
import ScriptAudit.Config
import ScriptAudit.Path

/-! The settings that a command line asks for. -/

namespace ScriptAudit

structure Settings where
  root : Path
  exclude : List Text
  preferGit : Bool
  inlineThreshold : Int
  save : Bool
  verbose : Bool
deriving DecidableEq, Repr

namespace Settings

def default : Settings := ⟨.down [], [], true, Config.defaultThreshold, true, false⟩

def config (s : Settings) : Config :=
  { Config.default with
    excluded := Config.defaultExcluded ++ s.exclude
    inlineThreshold := s.inlineThreshold
    preferGit := s.preferGit }

end Settings

namespace CommandLine

inductive Stop where
  | help
  | version
  | misuse (why : Misuse)
deriving DecidableEq, Repr

def threshold (value : Text) : Except Misuse Int :=
  match Text.readInt? value with
  | none => .error (.notInteger value)
  | some n => if n < 0 then .error (.negative n) else .ok n

def directoryName (value : Text) : Except Misuse Text :=
  if Config.isPlainName value then .ok value else .error (.notPlainName value)

/-- The settings after an option. The value is empty for an option that takes none. -/
def Switch.apply (settings : Settings) (value : Text) : Switch → Except Stop Settings
  | .help => .error .help
  | .version => .error .version
  | .noGit => .ok { settings with preferGit := false }
  | .noSave => .ok { settings with save := false }
  | .verbose => .ok { settings with verbose := true }
  | .exclude =>
    match directoryName value with
    | .ok name => .ok { settings with exclude := settings.exclude ++ [name] }
    | .error why => .error (.misuse why)
  | .inlineThreshold =>
    match threshold value with
    | .ok n => .ok { settings with inlineThreshold := n }
    | .error why => .error (.misuse why)

/-- The options that one word asks for, of which the last may have a value. Letters after a single
dash are options too. -/
def spread (single : Bool) (s : Switch) (attached : Text) :
    Except Misuse (List (Switch × Option Text)) :=
  if s.takesValue then .ok [(s, some attached)]
  else
    match attached with
    | [] => .error (.valueIgnored s [])
    | letter :: rest =>
      match (if single then Switch.named? [Word.dash, letter] else none) with
      | none => .error (.valueIgnored s attached)
      | some next =>
        if rest.isEmpty then .ok [(s, none), (next, none)]
        else
          match spread single next rest with
          | .ok more => .ok ((s, none) :: more)
          | .error why => .error why

structure State where
  settings : Settings
  rooted : Bool
  extras : List Text

/-- Applies options in order; one that lacks its value takes it from the words that follow. -/
def applyAll (settings : Settings) (words : List Word) :
    List (Switch × Option Text) → Except Stop (Settings × List Word)
  | [] => .ok (settings, words)
  | (s, value) :: rest =>
    match value, s.takesValue, words with
    | none, true, .plain value :: words =>
      match s.apply settings value with
      | .ok settings => applyAll settings words rest
      | .error stop => .error stop
    | none, true, _ => .error (.misuse (.valueExpected s))
    | value, _, words =>
      match s.apply settings (value.getD []) with
      | .ok settings => applyAll settings words rest
      | .error stop => .error stop

theorem applyAll_length {settings after : Settings} {words rest : List Word}
    {requests : List (Switch × Option Text)}
    (h : applyAll settings words requests = .ok (after, rest)) : rest.length ≤ words.length := by
  induction requests generalizing settings words with
  | nil => simp only [applyAll, Except.ok.injEq, Prod.mk.injEq] at h; simp [h.2]
  | cons request requests ih =>
    simp only [applyAll] at h
    split at h
    · split at h
      · have := ih h
        simp only [List.length_cons]
        omega
      · simp at h
    · simp at h
    · split at h
      · exact ih h
      · simp at h

def requests (s : Switch) (single : Bool) :
    Option Text → Except Misuse (List (Switch × Option Text))
  | none => .ok [(s, none)]
  | some attached => spread single s attached

/-- The words after the root. A separator that comes next goes with it. -/
def afterRoot : List Word → List Word
  | .separator :: rest => rest
  | rest => rest

theorem afterRoot_length (words : List Word) : (afterRoot words).length ≤ words.length := by
  unfold afterRoot
  split <;> simp

/-- Lets the words take effect one after the other. The first plain word is the root. -/
def obey (state : State) (words : List Word) : Except Stop State :=
  match words with
  | [] => .ok state
  | .unknown t :: rest => obey { state with extras := state.extras ++ [t] } rest
  | .separator :: rest =>
    if state.rooted then obey { state with extras := state.extras ++ [[Word.dash, Word.dash]] } rest
    else obey state rest
  | .plain t :: rest =>
    if state.rooted then obey { state with extras := state.extras ++ [t] } rest
    else
      let state :=
        { state with rooted := true, settings := { state.settings with root := .ofText t } }
      obey state (afterRoot rest)
  | .option s single attached :: rest =>
    match requests s single attached with
    | .error why => .error (.misuse why)
    | .ok asked =>
      match _h : applyAll state.settings rest asked with
      | .error stop => .error stop
      | .ok (settings, rest) => obey { state with settings := settings } rest
termination_by words.length
decreasing_by
  any_goals (simp only [List.length_cons]; omega)
  · have := afterRoot_length rest
    simp only [List.length_cons]
    omega
  · have := applyAll_length _h
    simp only [List.length_cons]
    omega

def read (argv : List Text) : Except Stop Settings :=
  match Word.ofTexts argv with
  | .error why => .error (.misuse why)
  | .ok words =>
    match obey ⟨.default, false, []⟩ words with
    | .error stop => .error stop
    | .ok state =>
      if state.extras.isEmpty then .ok state.settings
      else .error (.misuse (.unrecognized state.extras))

def program : String := "funcaudit"

def usageLines : List String := [
  "usage: funcaudit [-h] [--exclude NAME] [--no-git] [--inline-threshold N]",
  "                 [--no-save] [-v] [--version]",
  "                 [root]"]

def helpLines : List String := usageLines ++ [
  "",
  "Static function usage and async/await consistency audit for JavaScript and",
  "TypeScript sources",
  "",
  "positional arguments:",
  "  root                  Directory to analyze (default: current directory)",
  "",
  "options:",
  "  -h, --help            show this help message and exit",
  "  --exclude NAME        Additional directory name to skip (repeatable)",
  "  --no-git              Walk the directory tree instead of asking git for",
  "                        files",
  "  --inline-threshold N  Suggest inlining above N single-use functions",
  "                        (default: 5)",
  "  --no-save             Do not write the report file",
  "  -v, --verbose         Debug logging on stderr",
  "  --version             show program's version number and exit"]

structure Answer where
  status : Nat
  output : List Text
  complaint : List Text
deriving DecidableEq, Repr

def Stop.answer : Stop → Answer
  | .help => ⟨0, helpLines.map Text.ofString, []⟩
  | .version => ⟨0, [Text.ofString (program ++ " 0.1.0")], []⟩
  | .misuse why =>
    ⟨2, [], usageLines.map Text.ofString ++
      [Text.ofString (program ++ ": error: ") ++ why.message]⟩

end CommandLine

end ScriptAudit
