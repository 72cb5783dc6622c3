import ScriptAudit.Text

/-! Paths as names in a row. Empty names and single dots are left out when a path is read; double
dots stay, since what they lead to depends on links. -/

namespace ScriptAudit

structure Path where
  /-- Empty for a path that starts where one stands; else one slash, or two. -/
  anchor : Text
  names : List Text
deriving DecidableEq, Repr

namespace Path

def slash : Symbol := .char '/'

def dot : Symbol := .char '.'

/-- Exactly two slashes at the front are kept; any other number counts as one. -/
def anchorOf (t : Text) : Text :=
  match (t.takeWhile (· = slash)).length with
  | 0 => []
  | 2 => [slash, slash]
  | _ => [slash]

def ofText (t : Text) : Path where
  anchor := anchorOf t
  names := (t.splitOn slash).filter fun name => !name.isEmpty && name ≠ [dot]

/-- A path of no names is where one stands. -/
def text (p : Path) : Text :=
  if p.anchor.isEmpty && p.names.isEmpty then [dot]
  else p.anchor ++ List.intercalate [slash] p.names

/-- The path `q` as seen from `p`. -/
def join (p q : Path) : Path :=
  if q.anchor.isEmpty then { p with names := p.names ++ q.names } else q

def down (names : List Text) : Path := ⟨[], names⟩

/-- The last dot of a name and what follows it, if the name neither starts nor ends with it. -/
def suffix (name : Text) : Text :=
  let tail := (name.reverse.takeWhile (· ≠ dot)).reverse
  if !tail.isEmpty && tail.length + 1 < name.length then dot :: tail else []

/-- Whether a file system takes a name of this length. -/
def fits (name : Text) : Bool := name.byteSize ≤ 255

def lastSuffix (p : Path) : Text := suffix (p.names.getLast?.getD [])

end Path

end ScriptAudit
