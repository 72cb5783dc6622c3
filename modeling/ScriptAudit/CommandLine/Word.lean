import ScriptAudit.CommandLine.Switch
import ScriptAudit.Text.Numeral

/-! What each word of a command line is, before any of them takes effect. -/

namespace ScriptAudit.CommandLine

inductive Word where
  | plain (t : Text)
  /-- Two dashes: no option comes after them. -/
  | separator
  /-- An option, with what is written on to it. -/
  | option (s : Switch) (single : Bool) (attached : Option Text)
  | unknown (t : Text)
deriving DecidableEq, Repr

namespace Word

def dash : Symbol := .char '-'

def equalsSign : Symbol := .char '='

/-- A word up to its first equals sign, and what comes after that one. -/
def cut (t : Text) : Text × Option Text :=
  match t.dropWhile (· ≠ equalsSign) with
  | [] => (t, none)
  | _ :: value => (t.takeWhile (· ≠ equalsSign), some value)

def isSingle (spelling : Text) : Bool := spelling[1]? ≠ some dash

/-- The options that a word may abbreviate, by their names. With one dash, the first letter names
the option and the rest is written on to it. -/
def meanings (t : Text) : List (Text × Word) :=
  if isSingle t then
    Switch.spellings.filterMap fun (spelling, s) =>
      if spelling = t.take 2 then some (spelling, .option s true (some (t.drop 2)))
      else if t.isPrefixOf spelling then some (spelling, .option s (isSingle spelling) none)
      else none
  else
    let (stem, value) := cut t
    Switch.spellings.filterMap fun (spelling, s) =>
      if stem.isPrefixOf spelling then some (spelling, .option s (isSingle spelling) value)
      else none

def isDigit (s : Symbol) : Bool := (s.char?.bind Text.digitValue?).isSome

def areDigits (t : Text) : Bool := !t.isEmpty && t.all isDigit

/-- A dash and digits, with a point before some of them or without. A newline may come last. -/
def isNegativeNumber (t : Text) : Bool :=
  let body := if t.getLast? = some Text.newline then t.dropLast else t
  match body with
  | [] => false
  | first :: digits =>
    let fraction := digits.dropWhile isDigit
    first = dash && (areDigits digits ||
      (fraction.head? = some (.char '.') && areDigits (fraction.drop 1)))

/-- Negative numbers and words with a space are no options. -/
def unmatched (t : Text) : Word :=
  if isNegativeNumber t || t.contains (.char ' ') then .plain t else .unknown t

def withValue? (t : Text) : Option Word :=
  match cut t with
  | (_, none) => none
  | (spelling, some value) =>
    (Switch.named? spelling).map fun s => .option s (isSingle spelling) (some value)

def ofText (t : Text) : Except Misuse Word :=
  if t.head? ≠ some dash then .ok (.plain t)
  else
    match Switch.named? t with
    | some s => .ok (.option s (isSingle t) none)
    | none =>
      if t = [dash] then .ok (.plain t)
      else
        match withValue? t with
        | some word => .ok word
        | none =>
          match meanings t with
          | [] => .ok (unmatched t)
          | [(_, word)] => .ok word
          | several => .error (.ambiguous t (several.map Prod.fst))

def ofTexts : List Text → Except Misuse (List Word)
  | [] => .ok []
  | t :: rest => do
    if t = [dash, dash] then return .separator :: rest.map .plain
    else
      let word ← ofText t
      return word :: (← ofTexts rest)

end Word

end ScriptAudit.CommandLine
