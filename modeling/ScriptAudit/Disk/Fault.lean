import ScriptAudit.Text.Quoted

/-! Why a file system refuses to look up, to list, to read or to write. -/

namespace ScriptAudit.Disk

inductive Fault where
  | missing
  | inputOutput
  | denied
  | alreadyThere
  | notDirectory
  | isDirectory
  | noSpace
  | nameTooLong
  | tooManyLinks
deriving DecidableEq, Repr

namespace Fault

def number : Fault → Nat
  | .missing => 2
  | .inputOutput => 5
  | .denied => 13
  | .alreadyThere => 17
  | .notDirectory => 20
  | .isDirectory => 21
  | .noSpace => 28
  | .nameTooLong => 36
  | .tooManyLinks => 40

def description : Fault → String
  | .missing => "No such file or directory"
  | .inputOutput => "Input/output error"
  | .denied => "Permission denied"
  | .alreadyThere => "File exists"
  | .notDirectory => "Not a directory"
  | .isDirectory => "Is a directory"
  | .noSpace => "No space left on device"
  | .nameTooLong => "File name too long"
  | .tooManyLinks => "Too many levels of symbolic links"

/-- Whether a path that cannot be followed for this reason just leads to nothing. -/
def isAbsence : Fault → Bool
  | .missing | .notDirectory | .tooManyLinks => true
  | _ => false

end Fault

/-- A fault, and the path it came with. Of a file that is open the path is not told. -/
structure Failure where
  fault : Fault
  path : Option Text
deriving DecidableEq, Repr

def Failure.message (f : Failure) : String :=
  "[Errno " ++ toString f.fault.number ++ "] " ++ f.fault.description ++
    match f.path with
    | some path => ": " ++ path.quote
    | none => ""

end ScriptAudit.Disk
