import ScriptAudit.Host
import ScriptAudit.Text.Utf8

/-! Reports as files. Each report gets a name of its own, so that none takes the place of
another. -/

namespace ScriptAudit

structure Stamp where
  year : Nat
  month : Nat
  day : Nat
  hour : Nat
  minute : Nat
  second : Nat
deriving DecidableEq, Repr

namespace Stamp

def twoDigits (n : Nat) : Text :=
  if n < 10 then .char '0' :: Text.ofNat n else Text.ofNat n

def text (s : Stamp) : Text :=
  Text.ofNat s.year ++ "-" ++ twoDigits s.month ++ "-" ++ twoDigits s.day ++ "T" ++
    twoDigits s.hour ++ "-" ++ twoDigits s.minute ++ "-" ++ twoDigits s.second

end Stamp

namespace Artifact

def stem (title : Text) (stamp : Stamp) : Text := title ++ "-" ++ stamp.text

def number (k : Nat) : Text := if k = 0 then [] else "-" ++ Text.ofNat k

def candidate (root : Path) (stem : Text) (k : Nat) : Path :=
  root.join (.ofText (stem ++ number k ++ ".txt"))

def isTaken (d : Disk) (p : Path) : Bool :=
  match d.exists? p with
  | .ok found => found
  | .error _ => false

/-- The first candidate under which nothing is found, if it can be looked up. Among more candidates
than the disk has entries there is one that is not taken. -/
def freePath (d : Disk) (root : Path) (stem : Text) : Except Disk.Failure Path :=
  let tries := List.range (d.entries.length + 1)
  let path := candidate root stem ((tries.find? fun k => !isTaken d (candidate root stem k)).getD 0)
  match d.exists? path with
  | .error why => .error ⟨why, some path.text⟩
  | .ok _ => .ok path

def document (lines : List Text) : List UInt8 :=
  Utf8.encode (Text.unlines lines).display.toList

/-- Saves a report as a new file. What was written of a report that could not be finished stays. -/
def save (h : Host) (root : Path) (stem : Text) (lines : List Text) :
    Host × Except Disk.Failure Path :=
  match freePath h.disk root stem with
  | .error why => (h, .error why)
  | .ok path =>
    match h.openNew path with
    | .error why => (h, .error why)
    | .ok (opened, file) =>
      match opened.write file (document lines) with
      | (written, none) => (written, .ok path)
      | (written, some fault) => (written, .error ⟨fault, none⟩)

end Artifact

end ScriptAudit
