import ScriptAudit.Disk

/-! The machine an audit runs on: its files, what keeps them from being read or written, and what
version control answers. -/

namespace ScriptAudit

/-- What version control answers when it is asked for the files of a directory. -/
inductive Listing where
  | unstarted (why : Disk.Failure)
  | failed (complaint : Text)
  | names (names : List Text)
deriving DecidableEq, Repr

/-- Where there is no version control, there is no such program to start. -/
def Listing.unavailable : Listing := .unstarted ⟨.missing, some (Text.ofString "git")⟩

structure Host where
  disk : Disk
  /-- Directories that cannot be listed and files that cannot be read, by their written paths. -/
  faults : List (Text × Disk.Fault) := []
  /-- What keeps new files from being created. -/
  savingFault : Option Disk.Fault := none
  /-- After how many bytes writing to a file breaks off, and why. -/
  writingFault : Option (Nat × Disk.Fault) := none
  git : Listing := .unavailable
deriving DecidableEq, Repr

namespace Host

def fault? (h : Host) (p : Path) : Option Disk.Fault :=
  (h.faults.find? fun f => f.1 = p.text).map Prod.snd

def read (h : Host) (p : Path) : Except Disk.Fault (List UInt8) :=
  match h.fault? p with
  | some fault => .error fault
  | none => h.disk.read p

/-- Opens a new file, as yet empty. -/
def openNew (h : Host) (p : Path) : Except Disk.Failure (Host × Route) :=
  match h.savingFault with
  | some fault => .error ⟨fault, some p.text⟩
  | none =>
    match h.disk.createNew p with
    | .error fault => .error ⟨fault, some p.text⟩
    | .ok (disk, file) => .ok ({ h with disk := disk }, file)

/-- Writes to a file that is open. If that breaks off, what was written until then stays. -/
def write (h : Host) (file : Route) (bytes : List UInt8) : Host × Option Disk.Fault :=
  match h.writingFault with
  | none => ({ h with disk := h.disk.append file bytes }, none)
  | some (count, fault) =>
    ({ h with disk := h.disk.append file (bytes.take count) }, some fault)

end Host

end ScriptAudit
