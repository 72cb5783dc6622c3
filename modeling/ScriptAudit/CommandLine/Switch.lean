import ScriptAudit.Text.Quoted

/-! The options of the command line, how they can be written, and what can be wrong with them. -/

namespace ScriptAudit.CommandLine

inductive Switch where
  | help
  | exclude
  | noGit
  | inlineThreshold
  | noSave
  | verbose
  | version
deriving DecidableEq, Repr

namespace Switch

def all : List Switch := [help, exclude, noGit, inlineThreshold, noSave, verbose, version]

def names : Switch → List String
  | .help => ["-h", "--help"]
  | .exclude => ["--exclude"]
  | .noGit => ["--no-git"]
  | .inlineThreshold => ["--inline-threshold"]
  | .noSave => ["--no-save"]
  | .verbose => ["-v", "--verbose"]
  | .version => ["--version"]

def label (s : Switch) : String := String.intercalate "/" s.names

def takesValue : Switch → Bool
  | .exclude | .inlineThreshold => true
  | _ => false

def spellings : List (Text × Switch) :=
  all.flatMap fun s => s.names.map fun name => (Text.ofString name, s)

def named? (t : Text) : Option Switch := (spellings.find? fun e => e.1 = t).map Prod.snd

end Switch

inductive Misuse where
  | ambiguous (word : Text) (meanings : List Text)
  | valueExpected (s : Switch)
  | valueIgnored (s : Switch) (value : Text)
  | notInteger (value : Text)
  | negative (n : Int)
  | notPlainName (value : Text)
  | unrecognized (words : List Text)
deriving DecidableEq, Repr

namespace Misuse

def about (s : Switch) (complaint : String) : Text :=
  Text.ofString ("argument " ++ s.label ++ ": " ++ complaint)

def message : Misuse → Text
  | .ambiguous word meanings =>
    "ambiguous option: " ++ word ++ " could match " ++
      List.intercalate (Text.ofString ", ") meanings
  | .valueExpected s => about s "expected one argument"
  | .valueIgnored s value => about s ("ignored explicit argument " ++ value.quote)
  | .notInteger value => about .inlineThreshold ("expected an integer, got " ++ value.quote)
  | .negative n =>
    about .inlineThreshold ("expected a non-negative integer, got " ++ toString n)
  | .notPlainName value =>
    about .exclude ("expected a plain directory name, got " ++ value.quote)
  | .unrecognized words =>
    "unrecognized arguments: " ++ List.intercalate [Symbol.char ' '] words

end Misuse

end ScriptAudit.CommandLine
