import ScriptAudit.Session
import Std.Time.DateTime.Timestamp

/-! The program. It is given the names of the files on standard input, each ended by a zero byte, as
`git ls-files --cached --others -z` prints them, and looks at no others. -/

open ScriptAudit

namespace ScriptAudit.Main

/-- The day of a count of days from the first of January 1970. Years are counted from March on, so
that the leap day comes last. -/
def civil (days : Nat) : Nat × Nat × Nat :=
  let z := days + 719468
  let inEra := z % 146097
  let year := (inEra - inEra / 1460 + inEra / 36524 - inEra / 146096) / 365
  let inYear := inEra - (365 * year + year / 4 - year / 100)
  let month := (5 * inYear + 2) / 153
  let day := inYear - (153 * month + 2) / 5 + 1
  (year + 400 * (z / 146097) + month / 10, (month + 2) % 12 + 1, day)

def stampOf (seconds : Nat) : Stamp :=
  let (year, month, day) := civil (seconds / 86400)
  let rest := seconds % 86400
  ⟨year, month, day, rest / 3600, rest / 60 % 60, rest % 60⟩

def splitNames (bytes : List UInt8) : List Text :=
  ((bytes.splitOn 0).filter fun name => !name.isEmpty).map Utf8.decodeName

/-- Where a path leads that is followed from `here`, if there are no links on the way. -/
def routeOf (here : Route) (p : Path) : Route :=
  p.names.foldl (fun r name => if name = [Path.dot, Path.dot] then r.dropLast else r ++ [name])
    (if p.anchor.isEmpty then here else [])

partial def readAll (input : IO.FS.Stream) (got : ByteArray) : IO ByteArray := do
  let more ← input.read 65536
  if more.isEmpty then return got else readAll input (got ++ more)

def lookAt (p : Path) : IO (Option Item) := do
  try
    return some (.file (← IO.FS.readBinFile p.text.display).toList)
  catch
    | .noFileOrDirectory .. => return none
    | _ => return some .directory

def addItem (disk : Disk) (p : Path) : IO Disk := do
  match ← lookAt p with
  | some (.file bytes) => return disk.place (routeOf disk.here p) (.file bytes)
  | some _ => return disk.makeDirectory (routeOf disk.here p)
  | none => return disk

def hostFor (here : Route) (root : Path) (listed : List Text) : IO Host := do
  let mut disk ← addItem (Disk.makeDirectory { entries := [], here := here } here) root
  for name in listed do
    disk ← addItem disk (root.join (.ofText name))
  return { disk := disk, git := .names listed }

def writeNew (before after : Disk) : IO Unit := do
  for (route, item) in after.entries.drop before.entries.length do
    if let .file bytes := item then
      IO.FS.withFile (Path.mk [Path.slash] route).text.display .writeNew fun handle =>
        handle.write (ByteArray.mk bytes.toArray)

def failureMessage : Audit.Failure → Text
  | .refused why => why.message
  | .undiscovered (.badRoot why) => why.message
  | .undiscovered (.refused why) => why.message

end ScriptAudit.Main

open ScriptAudit.Main in
def main (args : List String) : IO UInt32 := do
  let argv := args.map Text.ofString
  let host ← match CommandLine.read argv with
    | .error _ => pure { disk := .empty }
    | .ok settings => do
      let names ← readAll (← IO.getStdin) .empty
      let here := (Path.ofText (Text.ofString (← IO.currentDir).toString)).names
      hostFor here settings.root (splitNames names.toList)
  let stamp := stampOf (← Std.Time.Timestamp.now).toSecondsSinceUnixEpoch.val.toNat
  match Session.run host argv stamp with
  | .error why =>
    IO.eprintln (failureMessage why).display
    return 1
  | .ok session =>
    for event in session.events do
      IO.eprintln (event.level.name ++ " " ++ event.message.display)
    for line in session.answer.output do IO.println line.display
    for line in session.answer.complaint do IO.eprintln line.display
    writeNew host.disk session.host.disk
    return session.answer.status.toUInt32
